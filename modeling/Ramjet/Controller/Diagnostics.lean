/- digest: Events on the Ingresses whose annotations were refused, each told of a change once. -/

import Mathlib.Data.Multiset.Filter
import Ramjet.Base.Arrival
import Ramjet.Base.Comparison
import Ramjet.Controller.Warnings

set_option autoImplicit false
set_option relaxedAutoImplicit false

namespace Ramjet.Controller.Diagnostics

open Ramjet.Base.Octets
open Ramjet.Base.Text
open Ramjet.Base.AssocMap
open Ramjet.Base.Arrival
open Ramjet.Base.Comparison
open Ramjet.Controller.Objects
open Ramjet.Controller.Secrets (Digest)
open Ramjet.Controller.Warnings (WarningKind)

section Emitting

/-- One thing the translator refused, put into words. -/
structure Warning where
  subject : ObjectKey
  kind : WarningKind
  detail : Bytes
  deriving DecidableEq

/-- An Event on one Ingress. -/
structure Event where
  regarding : ObjectKey
  uid : Bytes
  reason : Bytes
  note : Bytes
  deriving DecidableEq

/-- The hash of the warnings last written for each object. -/
structure WarningEvents where
  emitted : Map ObjectKey Nat := []
  deriving DecidableEq

def WarningEvents.invalidate (_ : WarningEvents) : WarningEvents := {}

/-- Namespace first, then name. -/
def keyOrder (k : ObjectKey) : List Nat ×ₗ List Nat :=
  toLex (textKey k.namespace_, textKey k.name)

def Warning.sortKey (w : Warning) : List Nat ×ₗ List Nat :=
  toLex (textKey w.kind.asStr, textKey w.detail)

/-- Files a refusal under its object. -/
def file (grouped : Map ObjectKey (List Warning)) (w : Warning) : Map ObjectKey (List Warning) :=
  if w.kind.isAnnotationRefusal then
    insert grouped w.subject ((get grouped w.subject).getD [] ++ [w])
  else grouped

def sortGroup (group : List Warning) : List Warning :=
  group.insertionSort fun a b => a.sortKey ≤ b.sortKey

/-- The refusals worth an Event, by the object that carries them. -/
def group (warnings : List Warning) : Map ObjectKey (List Warning) :=
  ((warnings.foldl file []).map fun e => (e.1, sortGroup e.2)).insertionSort fun a b =>
    keyOrder a.1 ≤ keyOrder b.1

/-- A content hash of one object's refusals. -/
def digestOf (group : List Warning) : Nat :=
  (group.foldl (fun d w => (d.str w.kind.asStr).str w.detail) ({} : Digest)).finish

def uidOf (ingress : Ingress) : Option (ObjectKey × Bytes) :=
  ingress.metadata.uid.map fun uid => (ObjectKey.of ingress.metadata, uid)

/-- Every Ingress in the snapshot that has a uid, by key. -/
def uidIndex (snapshot : ClusterSnapshot) : Map ObjectKey Bytes :=
  collect (snapshot.ingresses.filterMap uidOf)

def Event.of (key : ObjectKey) (uid : Bytes) (w : Warning) : Event :=
  ⟨key, uid, w.kind.asStr, w.detail⟩

/-- One changed object: an Event for each of its refusals, where it has a uid. -/
def emit (uids : Map ObjectKey Bytes) (out : List Event × WarningEvents)
    (entry : ObjectKey × List Warning) : List Event × WarningEvents :=
  match get uids entry.1 with
  | none => out
  | some uid =>
      (out.1 ++ entry.2.map (Event.of entry.1 uid),
        { emitted := insert out.2.emitted entry.1 (digestOf entry.2) })

/-- Writes an Event for every object whose refusals changed. -/
def sync (s : WarningEvents) (warnings : List Warning) (snapshot : ClusterSnapshot) :
    List Event × WarningEvents :=
  let grouped := group warnings
  let s : WarningEvents := { emitted := retain s.emitted fun key => contains grouped key }
  let changed := grouped.filter fun e => get s.emitted e.1 != some (digestOf e.2)
  if changed.isEmpty then ([], s)
  else changed.foldl (emit (uidIndex snapshot)) ([], s)

end Emitting

section Histories

/-- A call of the emitter. -/
inductive Call where
  | sync (warnings : List Warning) (snapshot : ClusterSnapshot)
  | invalidate

/-- The emitter with its calls so far, the last one first, and the Events each of them wrote. -/
structure History where
  events : WarningEvents := {}
  log : List (Call × List Event) := []

def History.step (h : History) (call : Call) : History :=
  match call with
  | .sync warnings snapshot =>
      let (written, events) := sync h.events warnings snapshot
      ⟨events, (call, written) :: h.log⟩
  | .invalidate => ⟨h.events.invalidate, (call, []) :: h.log⟩

def run (calls : List Call) : History := calls.foldl History.step {}

/-- The annotation refusals of one object, as they are listed. -/
def refusalsOf (warnings : List Warning) (key : ObjectKey) : List Warning :=
  warnings.filter fun w => w.kind.isAnnotationRefusal && decide (w.subject = key)

/-- The annotation refusals of one object. -/
def refusals (warnings : List Warning) (key : ObjectKey) : Multiset Warning :=
  (refusalsOf warnings key : Multiset Warning)

/-- The warnings an object was last told of, since it last had none and since the last
`invalidate`. -/
def toldBy (key : ObjectKey) : List (Call × List Event) → Option (List Warning)
  | [] => none
  | (.invalidate, _) :: _ => none
  | (.sync warnings _, written) :: earlier =>
      if refusals warnings key = 0 then none
      else if written.any fun e => decide (e.regarding = key) then some warnings
      else toldBy key earlier

/-- The refusals last written for an object. -/
def told (key : ObjectKey) (log : List (Call × List Event)) : Option (Multiset Warning) :=
  (toldBy key log).map fun warnings => refusals warnings key

/-- An Ingress has a uid in a snapshot. -/
def HasUid (snapshot : ClusterSnapshot) (key : ObjectKey) (uid : Bytes) : Prop :=
  ∃ ingress ∈ snapshot.ingresses, uidOf ingress = some (key, uid)

/-- The groups that were hashed. -/
def groups : List Call → List (ObjectKey × List Warning)
  | [] => []
  | .sync warnings _ :: calls => group warnings ++ groups calls
  | .invalidate :: calls => groups calls

/-- Content hashes tell apart the groups of one object that were hashed. -/
def Apart (calls : List Call) : Prop :=
  ∀ g ∈ groups calls, ∀ g' ∈ groups calls, g.1 = g'.1 → digestOf g.2 = digestOf g'.2 → g.2 = g'.2

instance (calls : List Call) : Decidable (Apart calls) := by
  unfold Apart
  infer_instance

end Histories

section Groups

theorem asStr_injective : Function.Injective WarningKind.asStr := by
  let kinds : List WarningKind :=
    [.unknownClass, .routeConflict, .unsupportedBackend, .serviceUnresolved, .externalNameService,
      .endpointsSkipped, .invalidRoute, WarningKind.invalidAnnotation, .canaryOrphan,
      .canaryConflict, .canaryInert, .mirrorRejected, .tlsSecret, .tlsConflict, .tlsHostless,
      .defaultBackendConflict, .backendProtocolConflict]
  have hnodup : (kinds.map WarningKind.asStr).Nodup := by decide +kernel
  have hall : ∀ kind : WarningKind, kind ∈ kinds := by
    intro kind
    cases kind <;> decide
  intro a b h
  exact List.inj_on_of_nodup_map hnodup (hall a) (hall b) h

theorem refusals_eq_zero_iff (warnings : List Warning) (key : ObjectKey) :
    refusals warnings key = 0 ↔ refusalsOf warnings key = [] := Multiset.coe_eq_zero _

/-- The group of one object, in the order it is hashed and written in. -/
def groupOf (warnings : List Warning) (key : ObjectKey) : List Warning :=
  sortGroup (refusalsOf warnings key)

theorem groupOf_perm (warnings : List Warning) (key : ObjectKey) :
    (groupOf warnings key).Perm (refusalsOf warnings key) := List.perm_insertionSort _ _

theorem sortKey_injective_refusals {warnings : List Warning} {key : ObjectKey} :
    ∀ a ∈ refusalsOf warnings key, ∀ b ∈ refusalsOf warnings key,
      a.sortKey = b.sortKey → a = b := by
  intro a ha b hb h
  have hsubject : ∀ w ∈ refusalsOf warnings key, w.subject = key := by
    intro w hw
    have hkept := (List.mem_filter.mp hw).2
    simp only [Bool.and_eq_true, decide_eq_true_eq] at hkept
    exact hkept.2
  have hsubjects := (hsubject a ha).trans (hsubject b hb).symm
  obtain ⟨subject, kind, detail⟩ := a
  obtain ⟨subject', kind', detail'⟩ := b
  simp only [Warning.sortKey, EmbeddingLike.apply_eq_iff_eq, Prod.mk.injEq] at h
  obtain rfl : kind = kind' := asStr_injective (textKey_injective h.1)
  obtain rfl : detail = detail' := textKey_injective h.2
  obtain rfl : subject = subject' := hsubjects
  rfl

/-- Equal refusals are grouped alike. -/
theorem groupOf_eq_iff (warnings warnings' : List Warning) (key : ObjectKey) :
    groupOf warnings key = groupOf warnings' key ↔
      refusals warnings key = refusals warnings' key := by
  rw [refusals, refusals, Multiset.coe_eq_coe]
  constructor
  · intro h
    exact (groupOf_perm warnings key).symm.trans (h ▸ groupOf_perm warnings' key)
  · intro h
    exact insertionSort_perm h sortKey_injective_refusals

private theorem get_foldl_file (warnings : List Warning) (m : Map ObjectKey (List Warning))
    (key : ObjectKey) : get (warnings.foldl file m) key =
      if refusalsOf warnings key = [] then get m key
      else some ((get m key).getD [] ++ refusalsOf warnings key) := by
  induction warnings generalizing m with
  | nil => rfl
  | cons w warnings ih =>
      rw [List.foldl_cons, ih, file]
      by_cases hrefusal : w.kind.isAnnotationRefusal = true
      · rw [if_pos hrefusal, get_insert]
        by_cases hkey : w.subject = key
        · subst hkey
          have hcons : refusalsOf (w :: warnings) w.subject = w :: refusalsOf warnings w.subject :=
            List.filter_cons_of_pos (by simp [hrefusal])
          rw [hcons, if_neg (List.cons_ne_nil _ _), if_pos rfl]
          split
          · rename_i hnone
            rw [hnone]
          · simp
        · have hcons : refusalsOf (w :: warnings) key = refusalsOf warnings key :=
            List.filter_cons_of_neg (by simp [hkey])
          rw [hcons, if_neg (Ne.symm hkey)]
      · have hcons : refusalsOf (w :: warnings) key = refusalsOf warnings key :=
          List.filter_cons_of_neg (by simp [hrefusal])
        rw [if_neg hrefusal, hcons]

private theorem nodup_keys_file (warnings : List Warning) {m : Map ObjectKey (List Warning)}
    (h : (m.map (·.1)).Nodup) : ((warnings.foldl file m).map (·.1)).Nodup := by
  induction warnings generalizing m with
  | nil => exact h
  | cons w warnings ih =>
      apply ih
      unfold file
      split
      · exact nodup_keys_insert h _ _
      · exact h

/-- The groups before they are put in the order of their keys. -/
def filed (warnings : List Warning) : Map ObjectKey (List Warning) :=
  (warnings.foldl file []).map fun e => (e.1, sortGroup e.2)

private theorem nodup_keys_filed (warnings : List Warning) :
    ((filed warnings).map (·.1)).Nodup := by
  rw [filed, List.map_map]
  exact nodup_keys_file warnings List.nodup_nil

private theorem get_filed (warnings : List Warning) (key : ObjectKey) :
    get (filed warnings) key =
      if refusalsOf warnings key = [] then none else some (groupOf warnings key) := by
  rw [filed, get_map, get_foldl_file]
  split <;> rfl

private theorem group_perm (warnings : List Warning) : (group warnings).Perm (filed warnings) :=
  List.perm_insertionSort _ _

theorem nodup_keys_group (warnings : List Warning) : ((group warnings).map (·.1)).Nodup :=
  ((group_perm warnings).map (·.1)).nodup_iff.mpr (nodup_keys_filed warnings)

/-- Each object that carries a refusal has its group, and no other has one. -/
theorem get_group (warnings : List Warning) (key : ObjectKey) :
    get (group warnings) key =
      if refusalsOf warnings key = [] then none else some (groupOf warnings key) := by
  rw [get_perm (nodup_keys_group warnings) (group_perm warnings), get_filed]

/-- The groups do not depend on the order the warnings are listed in. -/
theorem group_eq_of_perm {warnings warnings' : List Warning} (h : warnings.Perm warnings') :
    group warnings = group warnings' := by
  have hnodup := nodup_keys_filed warnings
  have hnodup' := nodup_keys_filed warnings'
  have hrefusals (key : ObjectKey) : (refusalsOf warnings key).Perm (refusalsOf warnings' key) :=
    h.filter _
  have hget (key : ObjectKey) : get (filed warnings) key = get (filed warnings') key := by
    have hgroup : groupOf warnings key = groupOf warnings' key :=
      (groupOf_eq_iff warnings warnings' key).mpr (Multiset.coe_eq_coe.mpr (hrefusals key))
    have hnil : refusalsOf warnings key = [] ↔ refusalsOf warnings' key = [] := by
      rw [← List.length_eq_zero_iff, (hrefusals key).length_eq, List.length_eq_zero_iff]
    rw [get_filed, get_filed, hgroup, ite_congr (propext hnil) (fun _ => rfl) fun _ => rfl]
  have hperm : (filed warnings).Perm (filed warnings') := by
    refine (List.perm_ext_iff_of_nodup (hnodup.of_map _) (hnodup'.of_map _)).mpr ?_
    rintro ⟨key, ws⟩
    rw [mem_iff_get hnodup, mem_iff_get hnodup', hget]
  have hinjective : ∀ a ∈ filed warnings, ∀ b ∈ filed warnings,
      keyOrder a.1 = keyOrder b.1 → a = b := by
    rintro ⟨⟨namespace_, name⟩, ws⟩ ha ⟨⟨namespace', name'⟩, ws'⟩ hb hkey
    simp only [keyOrder, EmbeddingLike.apply_eq_iff_eq, Prod.mk.injEq] at hkey
    obtain rfl := textKey_injective hkey.1
    obtain rfl := textKey_injective hkey.2
    exact List.inj_on_of_nodup_map hnodup ha hb rfl
  exact insertionSort_perm hperm hinjective

end Groups

section Syncs

/-- The Events of one group. -/
def eventsOf (uids : Map ObjectKey Bytes) (entry : ObjectKey × List Warning) : List Event :=
  match get uids entry.1 with
  | none => []
  | some uid => entry.2.map (Event.of entry.1 uid)

/-- The Events about one object. -/
def writtenFor (key : ObjectKey) (events : List Event) : List Event :=
  events.filter fun e => decide (e.regarding = key)

theorem foldl_emit_events (uids : Map ObjectKey Bytes) (entries : Map ObjectKey (List Warning))
    (out : List Event × WarningEvents) :
    (entries.foldl (emit uids) out).1 = out.1 ++ entries.flatMap (eventsOf uids) := by
  induction entries generalizing out with
  | nil => simp
  | cons entry entries ih =>
      rw [List.foldl_cons, ih, List.flatMap_cons, ← List.append_assoc, emit, eventsOf]
      cases get uids entry.1 with
      | none => rw [List.append_nil]
      | some uid => rfl

theorem foldl_emit_emitted (uids : Map ObjectKey Bytes) {entries : Map ObjectKey (List Warning)}
    (h : (entries.map (·.1)).Nodup) (out : List Event × WarningEvents) (key : ObjectKey) :
    get (entries.foldl (emit uids) out).2.emitted key =
      match get entries key, get uids key with
      | some group, some _ => some (digestOf group)
      | _, _ => get out.2.emitted key := by
  induction entries generalizing out with
  | nil => rfl
  | cons entry entries ih =>
      obtain ⟨entryKey, entryGroup⟩ := entry
      rw [List.map_cons, List.nodup_cons] at h
      rw [List.foldl_cons, ih h.2, emit]
      by_cases hkey : entryKey = key
      · subst hkey
        have hrest : get entries entryKey = none := by
          rw [← Option.not_isSome_iff_eq_none, get_isSome_iff]
          exact h.1
        rw [hrest]
        cases huid : get uids entryKey with
        | none => simp [Base.AssocMap.get]
        | some uid => simp [Base.AssocMap.get]
      · have hhead : get ((entryKey, entryGroup) :: entries) key = get entries key := by
          rw [Base.AssocMap.get, if_neg hkey]
        rw [hhead]
        cases get uids entryKey with
        | none => rfl
        | some uid => simp only [get_insert_of_ne _ (Ne.symm hkey)]

theorem writtenFor_eventsOf (uids : Map ObjectKey Bytes) {entries : Map ObjectKey (List Warning)}
    (h : (entries.map (·.1)).Nodup) (key : ObjectKey) :
    writtenFor key (entries.flatMap (eventsOf uids)) =
      match get entries key with
      | some group => eventsOf uids (key, group)
      | none => [] := by
  have hone (entry : ObjectKey × List Warning) :
      (eventsOf uids entry).filter (fun e => decide (e.regarding = key)) =
        if entry.1 = key then eventsOf uids entry else [] := by
    have hregarding : ∀ e ∈ eventsOf uids entry, e.regarding = entry.1 := by
      intro e he
      unfold eventsOf at he
      split at he
      · cases he
      · obtain ⟨w, -, rfl⟩ := List.mem_map.mp he
        rfl
    split
    · rename_i hkey
      rw [List.filter_eq_self]
      intro e he
      exact decide_eq_true ((hregarding e he).trans hkey)
    · rename_i hkey
      rw [List.filter_eq_nil_iff]
      intro e he hself
      exact hkey ((hregarding e he).symm.trans (of_decide_eq_true hself))
  have hfilter : writtenFor key (entries.flatMap (eventsOf uids)) =
      (entries.filter fun e => decide (e.1 = key)).flatMap (eventsOf uids) := by
    clear h
    rw [writtenFor]
    induction entries with
    | nil => rfl
    | cons entry entries ih =>
        rw [List.flatMap_cons, List.filter_append, hone, ih]
        by_cases hkey : entry.1 = key
        · rw [if_pos hkey, List.filter_cons_of_pos (by simpa using hkey), List.flatMap_cons]
        · rw [if_neg hkey, List.filter_cons_of_neg (by simpa using hkey), List.nil_append]
  rw [hfilter, filter_key h]
  cases get entries key with
  | none => rfl
  | some group => simp

variable (s : WarningEvents) (warnings : List Warning) (snapshot : ClusterSnapshot)

/-- The groups that a pass finds changed. -/
def changed : Map ObjectKey (List Warning) :=
  (group warnings).filter fun e =>
    get (retain s.emitted fun key => contains (group warnings) key) e.1 != some (digestOf e.2)

theorem sync_eq : sync s warnings snapshot =
    (changed s warnings).foldl (emit (uidIndex snapshot))
      ([], { emitted := retain s.emitted fun key => contains (group warnings) key }) := by
  have hempty : (changed s warnings).isEmpty = true → changed s warnings = [] :=
    List.isEmpty_iff.mp
  simp only [sync]
  split
  · rename_i hnone
    rw [hempty hnone]
    rfl
  · rfl

theorem nodup_keys_changed : ((changed s warnings).map (·.1)).Nodup :=
  (nodup_keys_group warnings).sublist (List.filter_sublist.map _)

theorem get_changed (key : ObjectKey) :
    get (changed s warnings) key =
      if refusalsOf warnings key = [] ∨
          get s.emitted key = some (digestOf (groupOf warnings key)) then none
      else some (groupOf warnings key) := by
  rw [changed, get_filter (nodup_keys_group warnings), get_group]
  simp only [get_retain]
  by_cases hnone : refusalsOf warnings key = []
  · simp [hnone]
  · have hcontains : contains (group warnings) key = true := by
      rw [contains, get_group, if_neg hnone]
      rfl
    rw [if_neg hnone, Option.filter_some]
    by_cases hsame : get s.emitted key = some (digestOf (groupOf warnings key))
    · simp [hcontains, hsame]
    · simp [hcontains, hsame, hnone]

/-- What a pass writes for one object. -/
theorem writtenFor_sync (key : ObjectKey) :
    writtenFor key (sync s warnings snapshot).1 =
      if refusalsOf warnings key = [] ∨
          get s.emitted key = some (digestOf (groupOf warnings key)) then []
      else eventsOf (uidIndex snapshot) (key, groupOf warnings key) := by
  rw [sync_eq, foldl_emit_events, List.nil_append,
    writtenFor_eventsOf _ (nodup_keys_changed s warnings), get_changed]
  by_cases hsilent : refusalsOf warnings key = [] ∨
      get s.emitted key = some (digestOf (groupOf warnings key))
  · rw [if_pos hsilent, if_pos hsilent]
  · rw [if_neg hsilent, if_neg hsilent]

/-- What a pass remembers of one object. -/
theorem emitted_sync (key : ObjectKey) :
    get (sync s warnings snapshot).2.emitted key =
      if refusalsOf warnings key = [] then none
      else if (get (uidIndex snapshot) key).isSome then some (digestOf (groupOf warnings key))
      else get s.emitted key := by
  rw [sync_eq, foldl_emit_emitted _ (nodup_keys_changed s warnings), get_changed]
  dsimp only
  rw [get_retain, contains, get_group]
  by_cases hnone : refusalsOf warnings key = []
  · simp [hnone]
  · by_cases hsame : get s.emitted key = some (digestOf (groupOf warnings key))
    · simp [hnone, hsame]
    · cases get (uidIndex snapshot) key with
      | none => simp [hnone, hsame]
      | some uid => simp [hnone, hsame]

theorem sync_perm {warnings' : List Warning} (h : warnings.Perm warnings') :
    sync s warnings' snapshot = sync s warnings snapshot := by
  simp only [sync, group_eq_of_perm h]

theorem mem_uids_iff (key : ObjectKey) (uid : Bytes) :
    (key, uid) ∈ snapshot.ingresses.filterMap uidOf ↔ HasUid snapshot key uid := List.mem_filterMap

theorem get_uidIndex_isSome_iff (key : ObjectKey) :
    (get (uidIndex snapshot) key).isSome = true ↔ ∃ uid, HasUid snapshot key uid := by
  rw [uidIndex, get_collect_isSome_iff]
  exact exists_congr (mem_uids_iff snapshot key)

end Syncs

section Runs

/-- The emitter remembers the hash of what each object was last told. -/
def History.Tracked (h : History) : Prop :=
  ∀ key, get h.events.emitted key =
    (toldBy key h.log).map fun warnings => digestOf (groupOf warnings key)

theorem any_regarding_iff (key : ObjectKey) (events : List Event) :
    (events.any fun e => decide (e.regarding = key)) = true ↔ writtenFor key events ≠ [] := by
  rw [List.any_eq_true, writtenFor, Ne, List.filter_eq_nil_iff]
  push Not
  rfl

/-- A pass writes for an object just where its refusals are news and it has a uid. -/
theorem writtenFor_sync_ne_nil_iff (s : WarningEvents) (warnings : List Warning)
    (snapshot : ClusterSnapshot) (key : ObjectKey) :
    writtenFor key (sync s warnings snapshot).1 ≠ [] ↔
      (∃ uid, HasUid snapshot key uid) ∧ refusals warnings key ≠ 0 ∧
        get s.emitted key ≠ some (digestOf (groupOf warnings key)) := by
  rw [writtenFor_sync, ← get_uidIndex_isSome_iff, Ne, Ne, refusals_eq_zero_iff]
  by_cases hsilent : refusalsOf warnings key = [] ∨
      get s.emitted key = some (digestOf (groupOf warnings key))
  · rw [if_pos hsilent]
    rcases hsilent with hnone | hsame
    · simp [hnone]
    · simp [hsame]
  · rw [if_neg hsilent]
    rw [not_or] at hsilent
    have hgroup : groupOf warnings key ≠ [] := by
      intro hnil
      have hperm := groupOf_perm warnings key
      rw [hnil, List.nil_perm] at hperm
      exact hsilent.1 hperm
    cases huid : get (uidIndex snapshot) key with
    | none => simp [eventsOf, huid]
    | some uid => simp [eventsOf, huid, hgroup, hsilent]

theorem History.Tracked.step {h : History} (hh : h.Tracked) (call : Call) :
    (h.step call).Tracked := by
  intro key
  cases call with
  | invalidate => rfl
  | sync warnings snapshot =>
      simp only [History.step, toldBy, refusals_eq_zero_iff]
      rw [emitted_sync]
      by_cases hnone : refusalsOf warnings key = []
      · rw [if_pos hnone, if_pos hnone, Option.map_none]
      · rw [if_neg hnone, if_neg hnone]
        have hnews := writtenFor_sync_ne_nil_iff h.events warnings snapshot key
        rw [← any_regarding_iff, ← get_uidIndex_isSome_iff, Ne, refusals_eq_zero_iff] at hnews
        by_cases hwritten : ((sync h.events warnings snapshot).1.any fun e =>
            decide (e.regarding = key)) = true
        · rw [if_pos hwritten, if_pos (hnews.mp hwritten).1, Option.map_some]
        · rw [if_neg hwritten, ← hh key]
          split
          · rename_i huid
            by_contra hdiffers
            exact hwritten (hnews.mpr ⟨huid, hnone, fun hsame => hdiffers hsame.symm⟩)
          · rfl

theorem tracked_run (calls : List Call) : (run calls).Tracked := by
  have hrun : ∀ h : History, h.Tracked → (calls.foldl History.step h).Tracked := by
    induction calls with
    | nil => exact fun h hh => hh
    | cons call calls ih => exact fun h hh => ih (h.step call) (hh.step call)
  apply hrun
  intro key
  rfl

theorem log_run (calls : List Call) : (run calls).log.map (·.1) = calls.reverse := by
  have hrun : ∀ h : History, (calls.foldl History.step h).log.map (·.1) =
      calls.reverse ++ h.log.map (·.1) := by
    induction calls with
    | nil => exact fun h => rfl
    | cons call calls ih =>
        intro h
        have hone : (h.step call).log.map (·.1) = call :: h.log.map (·.1) := by
          cases call <;> rfl
        rw [List.foldl_cons, ih, hone, List.reverse_cons, List.append_assoc]
        rfl
  rw [run, hrun, List.map_nil, List.append_nil]

/-- What an object was told of is the refusals it had at one of the passes. -/
theorem toldBy_mem {key : ObjectKey} {log : List (Call × List Event)} {warnings : List Warning}
    (h : toldBy key log = some warnings) :
    refusalsOf warnings key ≠ [] ∧ ∃ snapshot, Call.sync warnings snapshot ∈ log.map (·.1) := by
  induction log with
  | nil => cases h
  | cons entry log ih =>
      obtain ⟨call, written⟩ := entry
      cases call with
      | invalidate => cases h
      | sync ws snapshot =>
          rw [toldBy] at h
          split at h
          · cases h
          · rename_i hsome
            split at h
            · cases h
              exact ⟨mt (refusals_eq_zero_iff warnings key).mpr hsome, snapshot, by simp⟩
            · obtain ⟨hrefusals, earlier, hin⟩ := ih h
              exact ⟨hrefusals, earlier, List.mem_cons_of_mem _ hin⟩

theorem groups_append (calls calls' : List Call) :
    groups (calls ++ calls') = groups calls ++ groups calls' := by
  induction calls with
  | nil => rfl
  | cons call calls ih =>
      cases call with
      | sync warnings snapshot => rw [List.cons_append, groups, groups, ih, List.append_assoc]
      | invalidate => rw [List.cons_append, groups, groups, ih]

/-- The group of an object with refusals was hashed. -/
theorem groupOf_mem {calls : List Call} {warnings : List Warning} {snapshot : ClusterSnapshot}
    (hin : Call.sync warnings snapshot ∈ calls) {key : ObjectKey}
    (hrefusals : refusalsOf warnings key ≠ []) : (key, groupOf warnings key) ∈ groups calls := by
  obtain ⟨before, after, rfl⟩ := List.append_of_mem hin
  rw [groups_append, groups, List.mem_append, List.mem_append]
  refine Or.inr (Or.inl (mem_of_get ?_))
  rw [get_group, if_neg hrefusals]

/-- The calls with the warnings of each listed in another order. -/
inductive SameCall : Call → Call → Prop
  | sync {warnings warnings' : List Warning} (snapshot : ClusterSnapshot)
      (h : warnings.Perm warnings') : SameCall (.sync warnings snapshot) (.sync warnings' snapshot)
  | invalidate : SameCall .invalidate .invalidate

theorem events_run_eq {calls calls' : List Call} (h : List.Forall₂ SameCall calls calls') :
    (run calls').events = (run calls).events := by
  have hrun : ∀ a b : History, b.events = a.events →
      (calls'.foldl History.step b).events = (calls.foldl History.step a).events := by
    induction h with
    | nil => exact fun a b hab => hab
    | @cons call call' _ _ hcall _ ih =>
        intro a b hab
        apply ih
        cases hcall with
        | sync snapshot hperm =>
            simp only [History.step]
            rw [hab, sync_perm a.events _ snapshot hperm]
        | invalidate => rfl
  exact hrun {} {} rfl

/-- Events are written for an Ingress when it has a uid and refusals other than those last written
for it, one for each of them, whatever order the warnings come in. -/
theorem sync_writes (calls : List Call) (warnings : List Warning) (snapshot : ClusterSnapshot)
    (hapart : Apart (calls ++ [.sync warnings snapshot])) (key : ObjectKey) :
    (writtenFor key (sync (run calls).events warnings snapshot).1 ≠ [] ↔
      (∃ uid, HasUid snapshot key uid) ∧ refusals warnings key ≠ 0 ∧
        told key (run calls).log ≠ some (refusals warnings key)) ∧
    (writtenFor key (sync (run calls).events warnings snapshot).1 ≠ [] →
      ∃ uid, HasUid snapshot key uid ∧
        (writtenFor key (sync (run calls).events warnings snapshot).1 : Multiset Event) =
          (refusals warnings key).map (Event.of key uid)) ∧
    ∀ calls' warnings', List.Forall₂ SameCall calls calls' → warnings.Perm warnings' →
      sync (run calls').events warnings' snapshot = sync (run calls).events warnings snapshot := by
  refine ⟨?_, ?_, ?_⟩
  · rw [writtenFor_sync_ne_nil_iff]
    refine and_congr_right fun _ => and_congr_right fun hrefusals => not_congr ?_
    rw [tracked_run calls key, told]
    cases htold : toldBy key (run calls).log with
    | none => simp
    | some ws =>
        obtain ⟨hws, earlier, hin⟩ := toldBy_mem htold
        rw [log_run, List.mem_reverse] at hin
        have hbefore : (key, groupOf ws key) ∈ groups (calls ++ [.sync warnings snapshot]) :=
          groupOf_mem (List.mem_append_left _ hin) hws
        have hnow : (key, groupOf warnings key) ∈ groups (calls ++ [.sync warnings snapshot]) :=
          groupOf_mem (List.mem_append_right _ (List.mem_singleton_self _))
            (mt (refusals_eq_zero_iff warnings key).mpr hrefusals)
        rw [Option.map_some, Option.map_some, Option.some.injEq, Option.some.injEq,
          ← groupOf_eq_iff]
        exact ⟨hapart _ hbefore _ hnow rfl, congrArg digestOf⟩
  · intro hwritten
    rw [writtenFor_sync] at hwritten ⊢
    split at hwritten
    · exact absurd rfl hwritten
    · rename_i hnews
      rw [if_neg hnews]
      unfold eventsOf at hwritten ⊢
      cases huid : get (uidIndex snapshot) key with
      | none =>
          rw [huid] at hwritten
          exact absurd rfl hwritten
      | some uid =>
          refine ⟨uid, (mem_uids_iff snapshot key uid).mp (mem_of_get_collect huid), ?_⟩
          rw [refusals, Multiset.map_coe]
          exact Multiset.coe_eq_coe.mpr ((groupOf_perm warnings key).map _)
  · intro calls' warnings' hcalls hperm
    rw [events_run_eq hcalls, sync_perm _ _ _ hperm]

/-- A refusal that changes is written, and one that stays as it was is not. -/
theorem sync_writes_changed :
    let web : ObjectKey := ⟨ascii "prod", ascii "web"⟩
    let cluster : ClusterSnapshot :=
      { ingresses := [{ metadata :=
          { namespace_ := some (ascii "prod"), name := some (ascii "web")
            uid := some (ascii "uid-prod-web") } }] }
    let refused (detail : Bytes) : Warning := ⟨web, WarningKind.invalidAnnotation, detail⟩
    let calls := [Call.sync [refused (ascii "12%")] cluster]
    writtenFor web (sync (run calls).events [refused (ascii "13%")] cluster).1 ≠ [] ∧
      writtenFor web (sync (run calls).events [refused (ascii "12%")] cluster).1 = [] := by
  intro web cluster refused calls
  constructor
  · refine (sync_writes calls [refused (ascii "13%")] cluster (by decide +kernel) web).1.mpr ?_
    refine ⟨⟨ascii "uid-prod-web", _, List.mem_singleton_self _, ?_⟩, ?_, ?_⟩
    · decide +kernel
    · decide +kernel
    · decide +kernel
  · by_contra hwritten
    have hnews := (sync_writes calls [refused (ascii "12%")] cluster (by decide +kernel) web).1.mp
      hwritten
    exact hnews.2.2 (by decide +kernel)

end Runs

end Ramjet.Controller.Diagnostics
