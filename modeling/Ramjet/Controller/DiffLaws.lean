/- digest: The laws of the audit diff: empty where the tables agree, and turned with its sides. -/

import Mathlib.Data.Set.Card
import Ramjet.Base.Arrival
import Ramjet.Controller.Diff
import Ramjet.Controller.Totality
import Ramjet.Router.ServedRules

set_option autoImplicit false
set_option relaxedAutoImplicit false

namespace Ramjet.Controller.DiffLaws

open Ramjet.Base.Octets
open Ramjet.Base.Text
open Ramjet.Base.Outcome
open Ramjet.Base.AssocMap
open Ramjet.Base.Arrival
open Ramjet.Base.Comparison
open Ramjet.Router.Balancing
open Ramjet.Router.Rule
open Ramjet.Router.Table
open Ramjet.Router.Builder
open Ramjet.Router.BuiltTable
open Ramjet.Router.RoutingAgreement
open Ramjet.Router.Stats
open Ramjet.Router.RouteNumbers
open Ramjet.Router.ServedRules
open Ramjet.Controller.Totality (sniAt)
open Ramjet.Controller.Diff

section Sorting

theorem sortTexts_perm {xs ys : List Bytes} (h : xs.Perm ys) : sortTexts xs = sortTexts ys :=
  insertionSort_perm h fun _ _ _ _ hkey => textKey_injective hkey

@[simp] theorem length_sortTexts (xs : List Bytes) : (sortTexts xs).length = xs.length :=
  List.length_insertionSort _ _

@[simp] theorem sortTexts_eq_nil {xs : List Bytes} : sortTexts xs = [] ↔ xs = [] := by
  rw [← List.length_eq_zero_iff, length_sortTexts, List.length_eq_zero_iff]

end Sorting

section Passes

/-- The mirror a route has now, where it is not the one it had. -/
def gained (key : RouteKey) (had now : Option Bytes) : List Bytes :=
  if had ≠ now then now.toList.map (describeMirror key) else []

def describeEntry (e : RouteKey × RouteTarget) : Bytes := describe e.1 e.2

def mirrorEntry (e : RouteKey × RouteTarget) : List Bytes :=
  e.2.mirror.toList.map (describeMirror e.1)

def changedEntry (c : RouteKey × RouteTarget × RouteTarget) : Option Change :=
  changeOf c.1 c.2.1 c.2.2

def gainedEntry (c : RouteKey × RouteTarget × RouteTarget) : List Bytes :=
  gained c.1 c.2.1.mirror c.2.2.mirror

theorem noteRoute_eq (before : Map RouteKey RouteTarget) (d : ConfigDiff)
    (e : RouteKey × RouteTarget) :
    noteRoute before d e = { d with
      routesAdded := d.routesAdded ++
        against before (fun e => [describeEntry e]) (fun _ => []) e
      backendsChanged := d.backendsChanged ++
        against before (fun _ => []) (fun c => ((changedEntry c).map Change.text).toList) e
      mirrorsAdded := d.mirrorsAdded ++ against before mirrorEntry gainedEntry e
      mirrorsRemoved := d.mirrorsRemoved ++
        against before (fun _ => []) (fun c => gainedEntry (turned c)) e } := by
  obtain ⟨key, target⟩ := e
  cases hget : get before key with
  | none =>
      cases hmirror : target.mirror <;>
        simp [noteRoute, against, hget, hmirror, describeEntry, mirrorEntry]
  | some was =>
      have hturn : ¬was.mirror = target.mirror ↔ ¬target.mirror = was.mirror :=
        not_congr eq_comm
      cases hchange : changeOf key was target <;> by_cases hmirror : was.mirror = target.mirror <;>
        simp [noteRoute, against, hget, hchange, hmirror, changedEntry, gainedEntry, gained, turned,
          ← hturn]

theorem foldl_noteRoute (before : Map RouteKey RouteTarget) (l : List (RouteKey × RouteTarget))
    (d : ConfigDiff) :
    l.foldl (noteRoute before) d = { d with
      routesAdded := d.routesAdded ++
        l.flatMap (against before (fun e => [describeEntry e]) fun _ => [])
      backendsChanged := d.backendsChanged ++
        l.flatMap (against before (fun _ => []) fun c => ((changedEntry c).map Change.text).toList)
      mirrorsAdded := d.mirrorsAdded ++ l.flatMap (against before mirrorEntry gainedEntry)
      mirrorsRemoved := d.mirrorsRemoved ++
        l.flatMap (against before (fun _ => []) fun c => gainedEntry (turned c)) } := by
  induction l generalizing d with
  | nil => simp
  | cons e rest ih =>
      rw [List.foldl_cons, ih, noteRoute_eq]
      simp only [List.flatMap_cons, List.append_assoc]

theorem foldl_noteGone (after : Map RouteKey RouteTarget) (l : List (RouteKey × RouteTarget))
    (d : ConfigDiff) :
    l.foldl (noteGone after) d = { d with
      routesRemoved := d.routesRemoved ++ (onlyIn l after).map describeEntry
      mirrorsRemoved := d.mirrorsRemoved ++ (onlyIn l after).flatMap mirrorEntry } := by
  induction l generalizing d with
  | nil => simp [onlyIn]
  | cons e rest ih =>
      rw [List.foldl_cons, ih]
      cases hkept : contains after e.1 <;>
        simp [noteGone, onlyIn_cons, hkept, describeEntry, mirrorEntry]

/-- A name whose certificate is not the one it had. -/
def rotatedEntry (c : Bytes × Nat × Nat) : Option Bytes :=
  if c.2.1 ≠ c.2.2 then some c.1 else none

theorem foldl_noteCert (before : Map Bytes Nat) (l : List (Bytes × Nat)) (d : ConfigDiff) :
    l.foldl (noteCert before) d = { d with
      certsAdded := d.certsAdded + (onlyIn l before).length
      certsRotated := d.certsRotated ++
        l.flatMap (against before (fun e => [e.1]) fun c => (rotatedEntry c).toList) } := by
  induction l generalizing d with
  | nil => simp [onlyIn]
  | cons e rest ih =>
      rw [List.foldl_cons, ih]
      cases hget : get before e.1 with
      | none =>
          have hcontains : contains before e.1 = false := by rw [contains, hget]; rfl
          simp [noteCert, against, hget, onlyIn_cons, hcontains, Nat.add_assoc, Nat.add_comm 1]
      | some was =>
          have hcontains : contains before e.1 = true := by rw [contains, hget]; rfl
          by_cases hsame : was = e.2 <;>
            simp [noteCert, against, hget, onlyIn_cons, hcontains, hsame, rotatedEntry]

theorem foldl_noteGoneCert (after : Map Bytes Nat) (l : List (Bytes × Nat)) (d : ConfigDiff) :
    l.foldl (noteGoneCert after) d = { d with
      certsRemoved := d.certsRemoved + (onlyIn l after).length
      certsRotated := d.certsRotated ++ (onlyIn l after).map (·.1) } := by
  induction l generalizing d with
  | nil => simp [onlyIn]
  | cons e rest ih =>
      rw [List.foldl_cons, ih]
      cases hkept : contains after e.1 <;>
        simp [noteGoneCert, onlyIn_cons, hkept, Nat.add_assoc, Nat.add_comm 1]

end Passes

section NormalForm

variable (previous : Option RouteTable) (next : RouteTable)

/-- The keys of both tables that the diff has an entry of its own for. -/
def changes : List Change :=
  (common (routesOf previous) (routesOf (some next))).filterMap changedEntry

/-- The names of both tables whose certificate was replaced. -/
def rotations : List Bytes :=
  (common (certsOf previous) (certsOf (some next))).filterMap rotatedEntry

def gains : List Bytes :=
  (onlyIn (routesOf (some next)) (routesOf previous)).flatMap mirrorEntry ++
    (common (routesOf previous) (routesOf (some next))).flatMap gainedEntry

def losses : List Bytes :=
  (onlyIn (routesOf previous) (routesOf (some next))).flatMap mirrorEntry ++
    (common (routesOf previous) (routesOf (some next))).flatMap fun c => gainedEntry (turned c)

/-- The diff said without its loops: what one side has alone, and what both have otherwise. -/
theorem compute_eq : ConfigDiff.compute previous next =
    { «from» := previous.map (·.generation)
      «to» := next.generation
      routesAdded := sortTexts
        ((onlyIn (routesOf (some next)) (routesOf previous)).map describeEntry)
      routesRemoved := sortTexts
        ((onlyIn (routesOf previous) (routesOf (some next))).map describeEntry)
      backendsChanged := sortTexts ((changes previous next).map Change.text)
      certsRotated := sortTexts (((onlyIn (certsOf (some next)) (certsOf previous)).map (·.1) ++
        rotations previous next) ++ (onlyIn (certsOf previous) (certsOf (some next))).map (·.1))
      hostsAdded := sortTexts ((onlyIn (hostsOf (some next)) (hostsOf previous)).map (·.1))
      hostsRemoved := sortTexts ((onlyIn (hostsOf previous) (hostsOf (some next))).map (·.1))
      mirrorsAdded := sortTexts (gains previous next)
      mirrorsRemoved := sortTexts (losses previous next)
      defaultBackendChanged := previous.bind defaultBackendName != defaultBackendName next
      defaultBackend := defaultBackendName next
      certsAdded := (onlyIn (certsOf (some next)) (certsOf previous)).length
      certsRemoved := (onlyIn (certsOf previous) (certsOf (some next))).length } := by
  unfold ConfigDiff.compute ConfigDiff.sorted
  simp only [foldl_noteRoute, foldl_noteGone, foldl_noteCert, foldl_noteGoneCert, List.nil_append,
    Nat.zero_add]
  ext1
  case routesAdded =>
    exact sortTexts_perm (flatMap_fresh _ _ describeEntry)
  case backendsChanged =>
    apply sortTexts_perm
    rw [changes, List.map_filterMap, List.filterMap_eq_flatMap_toList]
    exact flatMap_both _ _ fun c => ((changedEntry c).map Change.text).toList
  case certsRotated =>
    apply sortTexts_perm
    apply List.Perm.append_right
    rw [rotations, List.filterMap_eq_flatMap_toList, List.map_eq_flatMap]
    exact flatMap_against _ _ (fun e => [e.1]) fun c => (rotatedEntry c).toList
  case mirrorsAdded =>
    exact sortTexts_perm (flatMap_against _ _ mirrorEntry gainedEntry)
  case mirrorsRemoved =>
    apply sortTexts_perm
    apply List.perm_append_comm.trans
    apply List.Perm.append_left
    exact flatMap_both _ _ fun c => gainedEntry (turned c)
  all_goals rfl

end NormalForm

section Turning

/-- A changed entry read from the other side. -/
def turnedChange (c : Change) : Change := { c with was := c.now, now := c.was }

theorem changeOf_turned (key : RouteKey) (was target : RouteTarget) :
    changeOf key target was = (changeOf key was target).map turnedChange := by
  unfold changeOf
  by_cases hbackend : was.backend = target.backend
  · by_cases hprotocol : was.protocol = target.protocol
    · by_cases hendpoints : was.endpoints = target.endpoints
      · simp [hbackend, hprotocol, hendpoints]
      · simp [hbackend, hprotocol, hendpoints, Ne.symm hendpoints, turnedChange]
    · simp [hbackend, hprotocol, Ne.symm hprotocol, turnedChange]
  · simp [hbackend, Ne.symm hbackend, turnedChange]

theorem rotatedEntry_turned (c : Bytes × Nat × Nat) : rotatedEntry (turned c) = rotatedEntry c := by
  simp only [rotatedEntry, turned, ne_eq, eq_comm]

theorem nodup_routesOf (t : Option RouteTable) : ((routesOf t).map (·.1)).Nodup := by
  cases t with
  | none => exact List.nodup_nil
  | some t => exact nodup_collect _

theorem nodup_hostsOf (t : Option RouteTable) : ((hostsOf t).map (·.1)).Nodup := by
  cases t with
  | none => exact List.nodup_nil
  | some t => exact nodup_collect _

theorem nodup_certsOf (t : Option RouteTable) : ((certsOf t).map (·.1)).Nodup := by
  cases t with
  | none => exact List.nodup_nil
  | some t => exact nodup_collect _

variable (a b : RouteTable)

theorem changes_turned :
    List.Perm (changes (some b) a) ((changes (some a) b).map turnedChange) := by
  have hcommon := common_turned (nodup_routesOf (some a)) (nodup_routesOf (some b))
  have hperm := hcommon.filterMap changedEntry
  rw [List.filterMap_map] at hperm
  rw [changes, changes, List.map_filterMap]
  have hentry : changedEntry ∘ turned = fun c => (changedEntry c).map turnedChange :=
    funext fun c => changeOf_turned c.1 c.2.1 c.2.2
  rwa [hentry] at hperm

theorem gains_turned : List.Perm (gains (some b) a) (losses (some a) b) := by
  have hcommon := common_turned (nodup_routesOf (some a)) (nodup_routesOf (some b))
  have hperm := hcommon.flatMap_right gainedEntry
  rw [List.flatMap_map] at hperm
  exact hperm.append_left _

theorem rotations_turned : List.Perm (rotations (some b) a) (rotations (some a) b) := by
  have hcommon := common_turned (nodup_certsOf (some a)) (nodup_certsOf (some b))
  have hperm := hcommon.filterMap rotatedEntry
  rw [List.filterMap_map] at hperm
  have hentry : rotatedEntry ∘ turned = rotatedEntry := funext rotatedEntry_turned
  rwa [hentry] at hperm

/-- Two diffs, the one with added and removed exchanged and with every changed entry turned. -/
structure Exchanged (d e : ConfigDiff) (cs : List Change) : Prop where
  generations : d.«from» = some e.«to» ∧ e.«from» = some d.«to»
  routes : e.routesAdded = d.routesRemoved ∧ e.routesRemoved = d.routesAdded
  hosts : e.hostsAdded = d.hostsRemoved ∧ e.hostsRemoved = d.hostsAdded
  mirrors : e.mirrorsAdded = d.mirrorsRemoved ∧ e.mirrorsRemoved = d.mirrorsAdded
  certs : e.certsAdded = d.certsRemoved ∧ e.certsRemoved = d.certsAdded
  rotated : e.certsRotated = d.certsRotated
  fallback : e.defaultBackendChanged = d.defaultBackendChanged
  changed : d.backendsChanged = sortTexts (cs.map Change.text) ∧
    e.backendsChanged = sortTexts (cs.map fun c => (turnedChange c).text)

theorem exchanged :
    Exchanged (ConfigDiff.compute (some a) b) (ConfigDiff.compute (some b) a)
      (changes (some a) b) := by
  rw [compute_eq, compute_eq]
  constructor
  case generations => exact ⟨rfl, rfl⟩
  case routes => exact ⟨rfl, rfl⟩
  case hosts => exact ⟨rfl, rfl⟩
  case certs => exact ⟨rfl, rfl⟩
  case mirrors =>
    exact ⟨sortTexts_perm (gains_turned a b), (sortTexts_perm (gains_turned b a)).symm⟩
  case rotated =>
    apply sortTexts_perm
    rw [List.perm_iff_count]
    intro name
    simp only [List.count_append, (rotations_turned a b).count_eq]
    omega
  case fallback => exact bne_comm
  case changed =>
    refine ⟨rfl, sortTexts_perm ?_⟩
    have hturned := (changes_turned a b).map Change.text
    rwa [List.map_map] at hturned

end Turning

section Emptiness

theorem changeOf_eq_none {key : RouteKey} {was target : RouteTarget} :
    changeOf key was target = none ↔ was.backend = target.backend ∧
      was.protocol = target.protocol ∧ was.endpoints = target.endpoints := by
  unfold changeOf
  by_cases hbackend : was.backend = target.backend <;>
    by_cases hprotocol : was.protocol = target.protocol <;>
      by_cases hendpoints : was.endpoints = target.endpoints <;>
        simp [hbackend, hprotocol, hendpoints]

theorem gained_eq_nil {key : RouteKey} {had now : Option Bytes} :
    gained key had now = [] ↔ had = now ∨ now = none := by
  unfold gained
  by_cases hsame : had = now
  · simp [hsame]
  · cases now <;> simp [hsame]

/-- An entry of both tables leaves no trace just where nothing of it differs. -/
theorem untraced_iff (c : RouteKey × RouteTarget × RouteTarget) :
    changedEntry c = none ∧ gainedEntry c = [] ∧ gainedEntry (turned c) = [] ↔ c.2.1 = c.2.2 := by
  obtain ⟨key, ⟨backend, endpoints, protocol, mirror⟩,
    ⟨backend', endpoints', protocol', mirror'⟩⟩ := c
  simp only [changedEntry, changeOf_eq_none, gainedEntry, gained_eq_nil, turned,
    RouteTarget.mk.injEq]
  constructor
  · rintro ⟨⟨hbackend, hprotocol, hendpoints⟩, hgain, hloss⟩
    refine ⟨hbackend, hendpoints, hprotocol, ?_⟩
    rcases hgain with hsame | hnow
    · exact hsame
    · rcases hloss with hsame | hwas
      · exact hsame.symm
      · rw [hnow, hwas]
  · rintro ⟨hbackend, hendpoints, hprotocol, hmirror⟩
    exact ⟨⟨hbackend, hprotocol, hendpoints⟩, .inl hmirror, .inl hmirror.symm⟩

variable (a b : RouteTable)

theorem routes_untraced_iff :
    (onlyIn (routesOf (some b)) (routesOf (some a)) = [] ∧
      onlyIn (routesOf (some a)) (routesOf (some b)) = [] ∧
        changes (some a) b = [] ∧ gains (some a) b = [] ∧ losses (some a) b = []) ↔
      ∀ k, get (routesOf (some a)) k = get (routesOf (some b)) k := by
  rw [agree_iff (nodup_routesOf (some a)) (nodup_routesOf (some b))]
  constructor
  · rintro ⟨hfresh, hgone, hchanges, hgains, hlosses⟩
    refine ⟨hfresh, hgone, fun c hc => (untraced_iff c).mp ⟨?_, ?_, ?_⟩⟩
    · exact List.filterMap_eq_nil_iff.mp hchanges c hc
    · exact List.flatMap_eq_nil_iff.mp (List.append_eq_nil_iff.mp hgains).2 c hc
    · exact List.flatMap_eq_nil_iff.mp (List.append_eq_nil_iff.mp hlosses).2 c hc
  · rintro ⟨hfresh, hgone, hsame⟩
    have hnone := fun c hc => (untraced_iff c).mpr (hsame c hc)
    refine ⟨hfresh, hgone, ?_, ?_, ?_⟩
    · exact List.filterMap_eq_nil_iff.mpr fun c hc => (hnone c hc).1
    · rw [gains, hfresh]
      exact List.flatMap_eq_nil_iff.mpr fun c hc => (hnone c hc).2.1
    · rw [losses, hgone]
      exact List.flatMap_eq_nil_iff.mpr fun c hc => (hnone c hc).2.2

theorem hosts_untraced_iff :
    (onlyIn (hostsOf (some b)) (hostsOf (some a)) = [] ∧
      onlyIn (hostsOf (some a)) (hostsOf (some b)) = []) ↔
      ∀ k, get (hostsOf (some a)) k = get (hostsOf (some b)) k := by
  rw [agree_iff (nodup_hostsOf (some a)) (nodup_hostsOf (some b))]
  exact and_congr_right fun _ => ⟨fun hgone => ⟨hgone, fun _ _ => rfl⟩, fun h => h.1⟩

theorem certs_untraced_iff :
    (onlyIn (certsOf (some b)) (certsOf (some a)) = [] ∧ rotations (some a) b = [] ∧
      onlyIn (certsOf (some a)) (certsOf (some b)) = []) ↔
      ∀ k, get (certsOf (some a)) k = get (certsOf (some b)) k := by
  have hrotations : rotations (some a) b = [] ↔
      ∀ c ∈ common (certsOf (some a)) (certsOf (some b)), c.2.1 = c.2.2 := by
    rw [rotations, List.filterMap_eq_nil_iff]
    simp only [rotatedEntry, ne_eq, ite_not, ite_eq_left_iff, reduceCtorEq, imp_false, not_not]
  rw [agree_iff (nodup_certsOf (some a)) (nodup_certsOf (some b)), hrotations]
  exact and_congr_right fun _ => and_comm

theorem isEmpty_iff : (ConfigDiff.compute (some a) b).isEmpty = true ↔
    (∀ k, get (routesOf (some a)) k = get (routesOf (some b)) k) ∧
      (∀ k, get (hostsOf (some a)) k = get (hostsOf (some b)) k) ∧
        (∀ k, get (certsOf (some a)) k = get (certsOf (some b)) k) ∧
          defaultBackendName a = defaultBackendName b := by
  rw [← routes_untraced_iff, ← hosts_untraced_iff, ← certs_untraced_iff, compute_eq,
    ConfigDiff.isEmpty]
  simp only [Bool.and_eq_true, List.isEmpty_iff, sortTexts_eq_nil, List.map_eq_nil_iff,
    List.append_eq_nil_iff, Bool.not_eq_true', Option.bind_some, bne_eq_false_iff_eq]
  tauto

end Emptiness

section Places

variable {rx : RegexEngine} {t : RouteTable}

/-- A place a route can be served at. -/
abbrev Place := HostSlot × Bytes × PathType

def Place.key (p : Place) : RouteKey := ⟨p.1.spelled, p.2.1, p.2.2.asStr⟩

def Place.rule (t : RouteTable) (p : Place) : Option PathRule := ruleAt t p.1 p.2.1 p.2.2

/-- No exact name holds a star, so that none is spelled as a wildcard. -/
def Plain (slot : HostSlot) : Prop := ∀ name, slot = .exact name → (42 : UInt8) ∉ name

theorem asStr_injective : Function.Injective PathType.asStr := by
  intro p q h
  cases p <;> cases q <;> first | rfl | exact absurd h (by decide)

theorem Place.key_inj (p q : Place) (hp : Plain p.1) (hq : Plain q.1) (h : p.key = q.key) :
    p = q := by
  obtain ⟨slot, path, pathType⟩ := p
  obtain ⟨slot', path', pathType'⟩ := q
  have hslot := spelled_inj hp hq (congrArg RouteKey.host h)
  have hpath : path = path' := congrArg RouteKey.path h
  have htype := asStr_injective (congrArg RouteKey.pathType h)
  have hslot' : slot = slot' := hslot
  have htype' : pathType = pathType' := htype
  rw [hslot', hpath, htype']

theorem plain_place (h : Built rx t) {p : Place} {rule : PathRule} (hrule : p.rule t = some rule) :
    Plain p.1 := by
  obtain ⟨v, hv, -⟩ := h.ruleAt_iff.mp hrule
  exact h.starless hv

theorem mem_routeEntries (h : Built rx t) {key : RouteKey} {target : RouteTarget} :
    (key, target) ∈ routeEntries t ↔
      ∃ p : Place, p.key = key ∧ (p.rule t).map (routeTarget t) = some target := by
  unfold routeEntries
  rw [List.mem_map]
  constructor
  · rintro ⟨⟨host, rule⟩, he, heq⟩
    cases heq
    obtain ⟨slot, v, rfl, hv, hrule⟩ := (mem_routes h.filed).mp he
    have hat : ruleAt t slot rule.path rule.pathType = some rule :=
      h.ruleAt_iff.mpr ⟨v, hv, hrule, rfl, rfl⟩
    refine ⟨(slot, rule.path, rule.pathType), ?_, ?_⟩
    · rw [Place.key, spelledHost_hostOf]
    · rw [Place.rule, hat]
      rfl
  · rintro ⟨⟨slot, path, pathType⟩, rfl, hmap⟩
    obtain ⟨rule, hrule, rfl⟩ := Option.map_eq_some_iff.mp hmap
    obtain ⟨v, hv, hmem, rfl, rfl⟩ := h.ruleAt_iff.mp hrule
    refine ⟨(hostOf slot, rule), (mem_routes h.filed).mpr ⟨slot, v, rfl, hv, hmem⟩, ?_⟩
    rw [spelledHost_hostOf]
    rfl

/-- The map of routes holds, under each place's key, what the table serves there. -/
theorem get_routesOf (h : Built rx t) (key : RouteKey) (target : RouteTarget) :
    get (routesOf (some t)) key = some target ↔
      ∃ p : Place, p.key = key ∧ (p.rule t).map (routeTarget t) = some target := by
  rw [← mem_routeEntries h, routesOf]
  apply get_collect_iff
  rintro ⟨key, target⟩ he ⟨key', target'⟩ he' rfl
  obtain ⟨p, hp, htarget⟩ := (mem_routeEntries h).mp he
  obtain ⟨q, hq, htarget'⟩ := (mem_routeEntries h).mp he'
  obtain ⟨rule, hrule, -⟩ := Option.map_eq_some_iff.mp htarget
  obtain ⟨rule', hrule', -⟩ := Option.map_eq_some_iff.mp htarget'
  have hsame := Place.key_inj p q (plain_place h hrule) (plain_place h hrule') (hp.trans hq.symm)
  rw [← hsame, htarget] at htarget'
  exact Option.some.inj htarget'

/-- The map of hosts holds the spelling of each slot that serves something. -/
theorem get_hostsOf (h : Built rx t) (key : Bytes) (u : Unit) :
    get (hostsOf (some t)) key = some u ↔
      ∃ slot : HostSlot, slot.spelled = key ∧ (vhostAt t slot).map (fun _ => ()) = some u := by
  rw [hostsOf, get_collect_iff fun _ _ _ _ _ => rfl, List.mem_map]
  constructor
  · rintro ⟨⟨host, v⟩, he, heq⟩
    cases heq
    obtain ⟨slot, rfl, hv⟩ := (mem_virtualHosts h.filed).mp he
    refine ⟨slot, (spelledHost_hostOf slot).symm, ?_⟩
    rw [hv]
    rfl
  · rintro ⟨slot, rfl, hmap⟩
    obtain ⟨v, hv, -⟩ := Option.map_eq_some_iff.mp hmap
    refine ⟨(hostOf slot, v), (mem_virtualHosts h.filed).mpr ⟨slot, rfl, hv⟩, ?_⟩
    rw [spelledHost_hostOf]

theorem plain_vhost (h : Built rx t) {slot : HostSlot} {u : Unit}
    (hslot : (vhostAt t slot).map (fun _ => ()) = some u) : Plain slot := by
  obtain ⟨v, hv, -⟩ := Option.map_eq_some_iff.mp hslot
  exact h.starless hv

theorem plain_cert (h : Built rx t) {slot : HostSlot} {id : Nat}
    (hslot : sniAt t.tls slot = some id) : Plain slot := by
  rintro name rfl
  have hget : get t.tls.exact name = some id := hslot
  apply h.named.starless name
  rw [← get_isSome_iff, hget]
  rfl

theorem mem_certEntries {m : SniMap} (h : Named m) {host : RouteHost} {id : Nat} :
    (host, id) ∈ certEntries m ↔ ∃ slot, hostOf slot = host ∧ sniAt m slot = some id := by
  unfold certEntries
  simp only [List.mem_append, List.mem_map, Option.mem_toList, Prod.mk.injEq]
  constructor
  · rintro ((⟨⟨name, id'⟩, he, rfl, rfl⟩ | ⟨⟨parent, id'⟩, he, rfl, rfl⟩) | ⟨id', hid, rfl, rfl⟩)
    · exact ⟨.exact name, rfl, get_of_mem h.exact he⟩
    · exact ⟨.wildcard parent, rfl, get_of_mem h.wildcard he⟩
    · exact ⟨.catchAll, rfl, hid⟩
  · rintro ⟨slot, rfl, hid⟩
    cases slot with
    | exact name => exact .inl (.inl ⟨(name, id), mem_of_get hid, rfl, rfl⟩)
    | wildcard parent => exact .inl (.inr ⟨(parent, id), mem_of_get hid, rfl, rfl⟩)
    | catchAll => exact .inr ⟨id, hid, rfl, rfl⟩

/-- The map of certificates holds, under each slot's spelling, the one the table has for it. -/
theorem get_certsOf (h : Built rx t) (key : Bytes) (id : Nat) :
    get (certsOf (some t)) key = some id ↔
      ∃ slot : HostSlot, slot.spelled = key ∧ sniAt t.tls slot = some id := by
  have hentries : ∀ key id, (key, id) ∈ (certEntries t.tls).map (fun e => (spelledHost e.1, e.2)) ↔
      ∃ slot : HostSlot, slot.spelled = key ∧ sniAt t.tls slot = some id := by
    intro key id
    rw [List.mem_map]
    constructor
    · rintro ⟨⟨host, id'⟩, he, heq⟩
      cases heq
      obtain ⟨slot, rfl, hid⟩ := (mem_certEntries h.named).mp he
      exact ⟨slot, (spelledHost_hostOf slot).symm, hid⟩
    · rintro ⟨slot, rfl, hid⟩
      refine ⟨(hostOf slot, id), (mem_certEntries h.named).mpr ⟨slot, rfl, hid⟩, ?_⟩
      rw [spelledHost_hostOf]
  rw [← hentries, certsOf]
  apply get_collect_iff
  rintro ⟨key, id⟩ he ⟨key', id'⟩ he' rfl
  obtain ⟨slot, hslot, hid⟩ := (hentries _ _).mp he
  obtain ⟨slot', hslot', hid'⟩ := (hentries _ _).mp he'
  have hsame := spelled_inj (plain_cert h hid) (plain_cert h hid') (hslot.trans hslot'.symm)
  rw [← hsame, hid] at hid'
  exact Option.some.inj hid'

end Places

section Agreeing

/-- Two tables agree on what is said of every route, on the hosts, the certificates and the
backend of last resort. -/
structure AgreeOn {α : Type} (said : RouteTable → PathRule → α) (a b : RouteTable) : Prop where
  routes : ∀ p : Place, (p.rule a).map (said a) = (p.rule b).map (said b)
  hosts : ∀ slot, (vhostAt a slot).isSome = (vhostAt b slot).isSome
  certs : ∀ slot, sniAt a.tls slot = sniAt b.tls slot
  fallback : defaultBackendName a = defaultBackendName b

/-- A route's backend, its endpoints, its protocol and its mirror, none of them written yet. -/
structure RouteFacts where
  backend : Bytes
  endpoints : Nat
  protocol : BackendProtocol
  mirror : Option MirrorFacts
  deriving DecidableEq, Repr

def routeFacts (t : RouteTable) (rule : PathRule) : RouteFacts :=
  let backend := t.backends[rule.backend]?
  ⟨(backend.map (·.name)).getD [], (backend.map (·.endpoints.length)).getD 0,
    (backend.map (·.protocol)).getD .http1, mirrorFacts t rule⟩

/-- Some route's mirrors differ, are written alike, and are all that differs. -/
def Disguised (a b : RouteTable) : Prop :=
  AgreeOn routeTarget a b ∧ ∃ (p : Place) (rule rule' : PathRule), p.rule a = some rule ∧
    p.rule b = some rule' ∧ mirrorFacts a rule ≠ mirrorFacts b rule'

/-- A name whose certificate was replaced. -/
def Replaced (a b : RouteTable) (slot : HostSlot) : Prop :=
  ∃ was now, sniAt a.tls slot = some was ∧ sniAt b.tls slot = some now ∧ was ≠ now

variable {rx : RegexEngine} {a b : RouteTable}

theorem isEmpty_iff_agreeOn (ha : Built rx a) (hb : Built rx b) :
    (ConfigDiff.compute (some a) b).isEmpty = true ↔ AgreeOn routeTarget a b := by
  have hroutes := agree_spelled_iff (fun p : Place => Plain p.1) Place.key_inj
    (f := fun p => (p.rule a).map (routeTarget a)) (g := fun p => (p.rule b).map (routeTarget b))
    (fun p target hp => by
      obtain ⟨rule, hrule, -⟩ := Option.map_eq_some_iff.mp hp
      exact plain_place ha hrule)
    (fun p target hp => by
      obtain ⟨rule, hrule, -⟩ := Option.map_eq_some_iff.mp hp
      exact plain_place hb hrule)
    (get_routesOf ha) (get_routesOf hb)
  have hhosts := agree_spelled_iff Plain (fun _ _ => spelled_inj)
    (f := fun slot => (vhostAt a slot).map fun _ => ())
    (g := fun slot => (vhostAt b slot).map fun _ => ())
    (fun _ _ => plain_vhost ha) (fun _ _ => plain_vhost hb) (get_hostsOf ha) (get_hostsOf hb)
  have hcerts := agree_spelled_iff Plain (fun _ _ => spelled_inj)
    (f := sniAt a.tls) (g := sniAt b.tls)
    (fun _ _ => plain_cert ha) (fun _ _ => plain_cert hb) (get_certsOf ha) (get_certsOf hb)
  have hserved : ∀ slot, ((vhostAt a slot).map fun _ => ()) = ((vhostAt b slot).map fun _ => ()) ↔
      (vhostAt a slot).isSome = (vhostAt b slot).isSome := by
    intro slot
    cases vhostAt a slot <;> cases vhostAt b slot <;> simp
  rw [isEmpty_iff, hroutes, hhosts, hcerts]
  simp only [hserved]
  constructor
  · rintro ⟨hr, hh, hc, hf⟩
    exact ⟨hr, hh, hc, hf⟩
  · intro h
    exact ⟨h.routes, h.hosts, h.certs, h.fallback⟩

/-- What is written of a route is made of the facts of it. -/
theorem AgreeOn.written (h : AgreeOn routeFacts a b) : AgreeOn routeTarget a b where
  routes := by
    intro p
    have hroutes := congrArg (Option.map fun f : RouteFacts =>
      (⟨f.backend, f.endpoints, f.protocol, f.mirror.map MirrorFacts.text⟩ : RouteTarget))
      (h.routes p)
    rwa [Option.map_map, Option.map_map] at hroutes
  hosts := h.hosts
  certs := h.certs
  fallback := h.fallback

/-- Tables that agree as written agree in fact, unless a mirror is disguised. -/
theorem agreeOn_facts_iff : AgreeOn routeFacts a b ↔ AgreeOn routeTarget a b ∧ ¬Disguised a b := by
  constructor
  · intro h
    refine ⟨h.written, ?_⟩
    rintro ⟨-, p, rule, rule', hrule, hrule', hmirror⟩
    have hroutes := h.routes p
    rw [hrule, hrule'] at hroutes
    exact hmirror (congrArg RouteFacts.mirror (Option.some.inj hroutes))
  · rintro ⟨h, hplain⟩
    refine ⟨?_, h.hosts, h.certs, h.fallback⟩
    intro p
    have hroutes := h.routes p
    cases hrule : p.rule a with
    | none =>
        rw [hrule] at hroutes
        cases hrule' : p.rule b with
        | none => rfl
        | some rule' =>
            rw [hrule'] at hroutes
            cases hroutes
    | some rule =>
        rw [hrule] at hroutes
        cases hrule' : p.rule b with
        | none =>
            rw [hrule'] at hroutes
            cases hroutes
        | some rule' =>
            rw [hrule'] at hroutes
            have htarget : routeTarget a rule = routeTarget b rule' := Option.some.inj hroutes
            have hmirror : mirrorFacts a rule = mirrorFacts b rule' := by
              by_contra hne
              exact hplain ⟨h, p, rule, rule', hrule, hrule', hne⟩
            have hbackend := congrArg RouteTarget.backend htarget
            have hendpoints := congrArg RouteTarget.endpoints htarget
            have hprotocol := congrArg RouteTarget.protocol htarget
            apply congrArg some
            rw [routeFacts, routeFacts, RouteFacts.mk.injEq]
            exact ⟨hbackend, hendpoints, hprotocol, hmirror⟩

end Agreeing

section Writing

/-- A decimal tells its number. -/
theorem decimal_injective : Function.Injective decimal := by
  intro m n h
  have hm := parseUnsigned_decimal (le_max_left m n)
  rw [h, parseUnsigned_decimal (le_max_right m n)] at hm
  exact (Option.some.inj hm).symm

theorem percent_not_mem_decimal (n : Nat) : (37 : UInt8) ∉ decimal n := by
  intro hmem
  have hdigit := isAsciiAlphanumeric_of_mem_numeral (by omega) (by omega) hmem
  exact absurd hdigit (by decide)

/-- What follows the percentage. -/
def hostText : Option Bytes → Bytes
  | some host => ascii ", host " ++ host ++ ascii ")"
  | none => ascii ")"

theorem hostText_injective : Function.Injective hostText := by
  have hopen : ascii ", host " = 44 :: ascii " host " := by decide
  have hclose : ascii ")" = [41] := by decide
  intro host host' h
  cases host with
  | none =>
      cases host' with
      | none => rfl
      | some host' => simp [hostText, hopen, hclose] at h
  | some host =>
      cases host' with
      | none => simp [hostText, hopen, hclose] at h
      | some host' =>
          have hsame : host = host' := by simpa [hostText] using h
          rw [hsame]

theorem text_eq (m : MirrorFacts) : m.text =
    (m.target ++ [32]) ++ (40 :: (decimal m.percent ++ (37 :: hostText m.host))) := by
  have hopen : ascii " (" = [32, 40] := by decide
  have hclose : ascii "%)" = 37 :: ascii ")" := by decide
  have hhost : ascii "%, host " = 37 :: ascii ", host " := by decide
  obtain ⟨target, percent, host⟩ := m
  cases host <;> simp [MirrorFacts.text, hostText, hopen, hclose, hhost]

/-- Mirrors are written apart where no backend's name opens a parenthesis. -/
theorem text_inj {m m' : MirrorFacts} (hm : (40 : UInt8) ∉ m.target)
    (hm' : (40 : UInt8) ∉ m'.target) (h : m.text = m'.text) : m = m' := by
  rw [text_eq, text_eq] at h
  have hopen := congrArg (splitOnce 40) h
  rw [splitOnce_append (by simpa using hm), splitOnce_append (by simpa using hm')] at hopen
  obtain ⟨htarget, hrest⟩ := Prod.mk.inj (Option.some.inj hopen)
  have hpercent := congrArg (splitOnce 37) hrest
  rw [splitOnce_append (percent_not_mem_decimal _), splitOnce_append (percent_not_mem_decimal _)]
    at hpercent
  obtain ⟨hvalue, hhost⟩ := Prod.mk.inj (Option.some.inj hpercent)
  obtain ⟨target, percent, host⟩ := m
  obtain ⟨target', percent', host'⟩ := m'
  rw [MirrorFacts.mk.injEq]
  exact ⟨List.append_cancel_right htarget, decimal_injective hvalue, hostText_injective hhost⟩

/-- No name of a table's backends opens a parenthesis. -/
def Unparenthesised (t : RouteTable) : Prop := ∀ backend ∈ t.backends, (40 : UInt8) ∉ backend.name

theorem mirrorFacts_target {t : RouteTable} (h : Unparenthesised t) {rule : PathRule}
    {m : MirrorFacts} (hm : mirrorFacts t rule = some m) : (40 : UInt8) ∉ m.target := by
  obtain ⟨mirror, -, rfl⟩ := Option.map_eq_some_iff.mp hm
  cases hbackend : t.backends[mirror.backend]? with
  | none => exact List.not_mem_nil
  | some backend =>
      have hname := h backend (List.mem_of_getElem? hbackend)
      simpa [hbackend] using hname

theorem not_disguised {a b : RouteTable} (ha : Unparenthesised a) (hb : Unparenthesised b) :
    ¬Disguised a b := by
  rintro ⟨h, p, rule, rule', hrule, hrule', hne⟩
  have hroutes := h.routes p
  rw [hrule, hrule'] at hroutes
  have hmirror : (mirrorFacts a rule).map MirrorFacts.text =
      (mirrorFacts b rule').map MirrorFacts.text :=
    congrArg RouteTarget.mirror (Option.some.inj hroutes)
  apply hne
  cases hm : mirrorFacts a rule with
  | none =>
      cases hm' : mirrorFacts b rule' with
      | none => rfl
      | some m' =>
          rw [hm, hm'] at hmirror
          cases hmirror
  | some m =>
      cases hm' : mirrorFacts b rule' with
      | none =>
          rw [hm, hm'] at hmirror
          cases hmirror
      | some m' =>
          rw [hm, hm'] at hmirror
          rw [text_inj (mirrorFacts_target ha hm) (mirrorFacts_target hb hm')
            (Option.some.inj hmirror)]

end Writing

section Laws

variable {rx : RegexEngine} {a b : RouteTable}

theorem mem_rotations (ha : Built rx a) (hb : Built rx b) {name : Bytes} :
    name ∈ rotations (some a) b ↔ ∃ slot, Replaced a b slot ∧ slot.spelled = name := by
  unfold rotations
  rw [List.mem_filterMap]
  constructor
  · rintro ⟨⟨key, was, now⟩, hc, hrotated⟩
    obtain ⟨hwas, hnow⟩ := (mem_common (nodup_certsOf (some b))).mp hc
    obtain ⟨slot, hslot, hid⟩ := (get_certsOf ha _ _).mp hwas
    obtain ⟨slot', hslot', hid'⟩ := (get_certsOf hb _ _).mp hnow
    have hsame := spelled_inj (plain_cert ha hid) (plain_cert hb hid') (hslot.trans hslot'.symm)
    rw [← hsame] at hid'
    by_cases hne : was ≠ now
    · rw [rotatedEntry, if_pos hne] at hrotated
      exact ⟨slot, ⟨was, now, hid, hid', hne⟩, hslot.trans (Option.some.inj hrotated)⟩
    · rw [rotatedEntry, if_neg hne] at hrotated
      cases hrotated
  · rintro ⟨slot, ⟨was, now, hid, hid', hne⟩, rfl⟩
    refine ⟨(slot.spelled, was, now), (mem_common (nodup_certsOf (some b))).mpr ⟨?_, ?_⟩, ?_⟩
    · exact (get_certsOf ha _ _).mpr ⟨slot, rfl, hid⟩
    · exact (get_certsOf hb _ _).mpr ⟨slot, rfl, hid'⟩
    · rw [rotatedEntry, if_pos hne]

theorem nodup_rotations : (rotations (some a) b).Nodup := by
  have hkeys := nodup_common_keys (certsOf (some a)) (nodup_certsOf (some b))
  rw [List.Nodup, List.pairwise_map] at hkeys
  rw [rotations, List.Nodup, List.pairwise_filterMap]
  refine hkeys.imp ?_
  intro c c' hne name hname name' hname'
  have hkey : ∀ d : Bytes × Nat × Nat, ∀ n, rotatedEntry d = some n → n = d.1 := by
    intro d n hd
    rw [rotatedEntry] at hd
    split at hd
    · exact (Option.some.inj hd).symm
    · cases hd
  rw [hkey c name hname, hkey c' name' hname']
  exact hne

theorem replaced_eq : (ConfigDiff.compute (some a) b).replaced = (rotations (some a) b).length := by
  rw [compute_eq, ConfigDiff.replaced]
  simp only [length_sortTexts, List.length_append, List.length_map]
  omega

/-- The count of rotated certificates is the number of names whose certificate was replaced. -/
theorem replaced_ncard (ha : Built rx a) (hb : Built rx b) :
    (ConfigDiff.compute (some a) b).replaced = {slot | Replaced a b slot}.ncard := by
  have himage : HostSlot.spelled '' {slot | Replaced a b slot} =
      ((rotations (some a) b).toFinset : Set Bytes) := by
    ext name
    rw [Set.mem_image, Finset.mem_coe, List.mem_toFinset, mem_rotations ha hb]
    rfl
  have hinj : Set.InjOn HostSlot.spelled {slot | Replaced a b slot} := by
    rintro slot ⟨was, now, hid, -, -⟩ slot' ⟨was', now', hid', -, -⟩ hsame
    exact spelled_inj (plain_cert ha hid) (plain_cert ha hid') hsame
  rw [replaced_eq, ← hinj.ncard_image, himage, Set.ncard_coe_finset,
    List.toFinset_card_of_nodup nodup_rotations]

variable (a b) in
/-- What is promised of the diff: when it is empty, how it turns, and what it counts as rotated. -/
structure Laws : Prop where
  empty : (ConfigDiff.compute (some a) b).isEmpty = true ↔ AgreeOn routeFacts a b
  turned : Exchanged (ConfigDiff.compute (some a) b) (ConfigDiff.compute (some b) a)
    (changes (some a) b)
  rotated : (ConfigDiff.compute (some a) b).replaced = {slot | Replaced a b slot}.ncard

theorem laws_iff (ha : Built rx a) (hb : Built rx b) : Laws a b ↔ ¬Disguised a b := by
  have hempty := isEmpty_iff_agreeOn ha hb
  constructor
  · intro laws hdisguised
    have hagree := laws.empty.mp (hempty.mpr hdisguised.1)
    exact (agreeOn_facts_iff.mp hagree).2 hdisguised
  · intro hplain
    refine ⟨?_, exchanged a b, replaced_ncard ha hb⟩
    rw [hempty, agreeOn_facts_iff]
    exact ⟨fun h => ⟨h, hplain⟩, fun h => h.1⟩

/-- A table of one route that copies to a backend. -/
def shadowed (mirror : MirrorRules) : Except BuildError RouteTable :=
  (({} : RouteTableBuilder).calls literalEngine
    [.backendWith (ascii "web") [] {}, .backendWith (ascii "t") [] {},
      .backendWith (ascii "t (5%, host h") [] {},
      .routeWith (some (ascii "a.example.com")) (ascii "/") .prefixed (ascii "web")
        { mirror := some mirror }]).build

theorem built_shadowed {mirror : MirrorRules} {t : RouteTable} (h : shadowed mirror = .ok t) :
    Built literalEngine t := ⟨{}, _, .fresh, h⟩

theorem laws_iff_resampled : ∃ a b, shadowed ⟨ascii "t", 5, none⟩ = .ok a ∧
    shadowed ⟨ascii "t", 7, none⟩ = .ok b ∧ Laws a b := by
  have hread : (do
      let a ← shadowed ⟨ascii "t", 5, none⟩
      let b ← shadowed ⟨ascii "t", 7, none⟩
      let place := (.exact (ascii "a.example.com"), ascii "/", .prefixed)
      pure ((Place.rule a place).map (routeTarget a) == (Place.rule b place).map (routeTarget b))) =
      (.ok false : Except BuildError Bool) := by
    decide +kernel
  obtain ⟨a, ha, hread⟩ := bind_eq_ok.mp hread
  obtain ⟨b, hb, hread⟩ := bind_eq_ok.mp hread
  refine ⟨a, b, ha, hb, (laws_iff (built_shadowed ha) (built_shadowed hb)).mpr ?_⟩
  intro hdisguised
  have hroutes := hdisguised.1.routes (.exact (ascii "a.example.com"), ascii "/", .prefixed)
  have hwritten := Except.ok.inj hread
  exact absurd hroutes (by simpa using hwritten)

/-- Two mirrors that differ in backend, percentage and host, and are written alike. -/
theorem disguised_mirrors : ∃ a b, shadowed ⟨ascii "t", 5, some (ascii "h (7%")⟩ = .ok a ∧
    shadowed ⟨ascii "t (5%, host h", 7, none⟩ = .ok b ∧ ¬Laws a b := by
  have hread : (do
      let a ← shadowed ⟨ascii "t", 5, some (ascii "h (7%")⟩
      let b ← shadowed ⟨ascii "t (5%, host h", 7, none⟩
      let place := (.exact (ascii "a.example.com"), ascii "/", .prefixed)
      pure ((ConfigDiff.compute (some a) b).isEmpty,
        (Place.rule a place).map (routeFacts a) == (Place.rule b place).map (routeFacts b))) =
      (.ok (true, false) : Except BuildError (Bool × Bool)) := by
    decide +kernel
  obtain ⟨a, ha, hread⟩ := bind_eq_ok.mp hread
  obtain ⟨b, hb, hread⟩ := bind_eq_ok.mp hread
  refine ⟨a, b, ha, hb, ?_⟩
  intro laws
  obtain ⟨hempty, hfacts⟩ := Prod.mk.inj (Except.ok.inj hread)
  have hroutes := (laws.empty.mp hempty).routes
    (.exact (ascii "a.example.com"), ascii "/", .prefixed)
  exact absurd hroutes (by simpa using hfacts)

end Laws

end Ramjet.Controller.DiffLaws
