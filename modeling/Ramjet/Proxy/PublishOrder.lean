/- digest: Certificates published before their table, interleaved with handshakes reading both. -/

import Ramjet.Base.Machine
import Ramjet.Proxy.History

set_option autoImplicit false
set_option relaxedAutoImplicit false

namespace Ramjet.Proxy.PublishOrder

open Ramjet.Base.Octets
open Ramjet.Base.AssocMap
open Ramjet.Base.Machine
open Ramjet.Router.Table
open Ramjet.Proxy.Tls
open Ramjet.Proxy.History

variable {Key Diff : Type}

section Model

/-- A table on the wire, with the certificates supplied for its generation. -/
structure Served (Key : Type) where
  table : RouteTable
  keys : CertKeys Key

/-- A handshake between its two loads: it holds a table and the id the table named. -/
structure Lookup (Key : Type) where
  serverName : Bytes
  served : Served Key
  id : Nat

structure Answer (Key : Type) where
  serverName : Bytes
  served : Served Key
  result : Option Key

/-- How far the holder of the lock has come with its publication. -/
inductive Stage (Key : Type) where
  | publishCerts (keys : CertKeys Key) (table : RouteTable)
  | storeRoutes (keys : CertKeys Key) (table : RouteTable)
  | release

structure Underway (Key Diff : Type) where
  plan : Plan Key Diff
  stage : Stage Key

/-- The two swapped snapshots, the history in front of them, and the handshakes reading them. -/
structure World (Key Diff : Type) where
  capacity : Nat
  routes : Served Key
  certs : CertStore Key
  state : State Key Diff := {}
  notify : Bool
  underway : Option (Underway Key Diff) := none
  lookups : List (Lookup Key) := []
  answers : List (Answer Key) := []
  outcomes : List Outcome := []
  changes : List PinChange := []

/-- A new history in front of a table and a store; the capacity is at least one. -/
def World.new (table : RouteTable) (certs : CertStore Key) (capacity : Nat) (notify : Bool) :
    World Key Diff where
  capacity := max capacity 1
  routes := ⟨table, certs.inner⟩
  certs := certs
  notify := notify

/-- One atomic step of the process. -/
inductive Action (Key Diff : Type) where
  | call (op : Op Key Diff)
  | publishCerts
  | storeRoutes
  | release
  | loadTable (serverName : Bytes)
  | getCert (i : Nat)

def firstStage (p : Plan Key Diff) : Stage Key :=
  match p.applied with
  | some (keys, table) => .publishCerts keys table
  | none => .release

/-- A handshake's first load: the table, and the id it names. -/
def World.loadTable (w : World Key Diff) (serverName : Bytes) : World Key Diff :=
  match w.routes.table.tls.resolve serverName with
  | some id => { w with lookups := w.lookups ++ [⟨serverName, w.routes, id⟩] }
  | none => { w with answers := w.answers ++ [⟨serverName, w.routes, none⟩] }

/-- A handshake's second load: the store, under the id it holds. -/
def World.getCert (w : World Key Diff) (i : Nat) : Option (World Key Diff) := do
  let lookup ← w.lookups[i]?
  return { w with
    lookups := w.lookups.eraseIdx i
    answers := w.answers ++ [⟨lookup.serverName, lookup.served, w.certs.get lookup.id⟩] }

def step (w : World Key Diff) : Action Key Diff → Option (World Key Diff)
  | .call op =>
      match w.underway with
      | some _ => none
      | none =>
          let p := plan w.capacity w.routes.table.generation w.state op
          some { w with underway := some ⟨p, firstStage p⟩ }
  | .publishCerts =>
      match w.underway with
      | some ⟨p, .publishCerts keys table⟩ =>
          some { w with
            certs := w.certs.publish keys
            underway := some ⟨p, .storeRoutes keys table⟩ }
      | _ => none
  | .storeRoutes =>
      match w.underway with
      | some ⟨p, .storeRoutes keys table⟩ =>
          some { w with
            routes := ⟨table, keys⟩
            underway := some ⟨p, .release⟩ }
      | _ => none
  | .release =>
      match w.underway with
      | some ⟨p, .release⟩ =>
          some { w with
            state := p.state
            underway := none
            outcomes := w.outcomes ++ [p.outcome]
            changes := if w.notify then w.changes ++ p.announced.toList else w.changes }
      | _ => none
  | .loadTable serverName => some (w.loadTable serverName)
  | .getCert i => w.getCert i

end Model

section Ordering

/-- Every name for which a table names an id it was supplied with resolves to that certificate. -/
def Resolves (served : Served Key) (certs : CertStore Key) : Prop :=
  ∀ serverName id key, served.table.tls.resolve serverName = some id →
    get served.keys id = some key → resolveName served.table certs serverName = some key

/-- A handshake between its loads will still find the certificate it was promised. -/
def Lookup.Finds (l : Lookup Key) (certs : CertStore Key) : Prop :=
  ∀ key, get l.served.keys l.id = some key → certs.get l.id = some key

/-- A finished handshake was given the certificate its table named. -/
def Answer.Right (a : Answer Key) : Prop :=
  ∀ id key, a.served.table.tls.resolve a.serverName = some id →
    get a.served.keys id = some key → a.result = some key

/-- Nobody falls back to no certificate, now or in a handshake begun or ended before. -/
structure Good (w : World Key Diff) : Prop where
  resolves : Resolves w.routes w.certs
  lookups : ∀ l ∈ w.lookups, l.Finds w.certs
  answers : ∀ a ∈ w.answers, a.Right

/-- A publication keeps the certificate of every id that the table still being served, or a
handshake under way, was supplied with. -/
def KeepsNamed (w : World Key Diff) : Action Key Diff → Prop
  | .publishCerts => ∀ p keys table, w.underway = some ⟨p, .publishCerts keys table⟩ →
      (∀ serverName id key, w.routes.table.tls.resolve serverName = some id →
        get w.routes.keys id = some key → get keys id = some key) ∧
      ∀ l ∈ w.lookups, ∀ key, get l.served.keys l.id = some key → get keys l.id = some key
  | _ => True

/-- Between its two stores a publication finds its own certificates in the store. -/
def Staged (w : World Key Diff) : Prop :=
  (∀ p keys table, w.underway = some ⟨p, .storeRoutes keys table⟩ → w.certs.inner = keys) ∧
    ∀ l ∈ w.lookups, l.served.table.tls.resolve l.serverName = some l.id

private theorem resolves_iff (served : Served Key) (certs : CertStore Key) :
    Resolves served certs ↔ ∀ serverName id key,
      served.table.tls.resolve serverName = some id → get served.keys id = some key →
        certs.get id = some key := by
  constructor
  · intro h serverName id key hid hkey
    have hresolved := h serverName id key hid hkey
    rwa [resolveName, hid, Option.bind_some] at hresolved
  · intro h serverName id key hid hkey
    rw [resolveName, hid, Option.bind_some]
    exact h serverName id key hid hkey

private theorem staged_step (w : World Key Diff) (a : Action Key Diff) (w' : World Key Diff)
    (hw : Staged w) (h : step w a = some w') : Staged w' := by
  obtain ⟨hstage, hnamed⟩ := hw
  cases a with
  | call op =>
      simp only [step] at h
      split at h
      · cases h
      cases h
      refine ⟨fun p keys table hnow => ?_, hnamed⟩
      have hfirst : firstStage p = .storeRoutes keys table := by
        injection hnow with hnow
        injection hnow with hplan hstage
        rw [← hplan]
        exact hstage
      unfold firstStage at hfirst
      split at hfirst <;> cases hfirst
  | publishCerts =>
      simp only [step] at h
      split at h
      · cases h
        refine ⟨fun p keys table hnow => ?_, hnamed⟩
        cases hnow
        rfl
      · cases h
  | storeRoutes =>
      simp only [step] at h
      split at h
      · cases h
        exact ⟨fun p keys table hnow => (by cases hnow), hnamed⟩
      · cases h
  | release =>
      simp only [step] at h
      split at h
      · cases h
        exact ⟨fun p keys table hnow => (by cases hnow), hnamed⟩
      · cases h
  | loadTable serverName =>
      simp only [step, Option.some.injEq] at h
      subst h
      unfold World.loadTable
      split
      · rename_i id hid
        refine ⟨hstage, fun l hl => ?_⟩
        rcases List.mem_append.mp hl with hl | hl
        · exact hnamed l hl
        · rw [List.mem_singleton] at hl
          subst hl
          exact hid
      · exact ⟨hstage, hnamed⟩
  | getCert i =>
      simp only [step, World.getCert, Option.bind_eq_bind, Option.bind_eq_some_iff] at h
      obtain ⟨lookup, -, h⟩ := h
      cases h
      exact ⟨hstage, fun l hl => hnamed l (List.mem_of_mem_eraseIdx hl)⟩

/-- A step keeps every handshake right exactly when it keeps the certificates still named. -/
private theorem good_step (w : World Key Diff) (a : Action Key Diff) (w' : World Key Diff)
    (hw : Staged w) (hgood : Good w) (h : step w a = some w') : Good w' ↔ KeepsNamed w a := by
  obtain ⟨hstage, hnamed⟩ := hw
  obtain ⟨hresolves, hlookups, hanswers⟩ := hgood
  cases a with
  | call op =>
      simp only [step] at h
      split at h
      · cases h
      cases h
      exact ⟨fun _ => trivial, fun _ => ⟨hresolves, hlookups, hanswers⟩⟩
  | publishCerts =>
      simp only [step] at h
      split at h
      · rename_i p keys table hnow
        cases h
        constructor
        · rintro ⟨hresolves', hlookups', -⟩ p' keys' table' hnow'
          rw [hnow] at hnow'
          cases hnow'
          exact ⟨(resolves_iff _ _).mp hresolves', hlookups'⟩
        · intro hkeeps
          obtain ⟨hserved, hlooked⟩ := hkeeps p keys table hnow
          exact ⟨(resolves_iff _ _).mpr hserved, hlooked, hanswers⟩
      · cases h
  | storeRoutes =>
      simp only [step] at h
      split at h
      · rename_i p keys table hnow
        cases h
        refine ⟨fun _ => trivial, fun _ => ⟨?_, hlookups, hanswers⟩⟩
        rw [resolves_iff]
        intro serverName id key _ hkey
        rw [CertStore.get, hstage p keys table hnow]
        exact hkey
      · cases h
  | release =>
      simp only [step] at h
      split at h
      · cases h
        exact ⟨fun _ => trivial, fun _ => ⟨hresolves, hlookups, hanswers⟩⟩
      · cases h
  | loadTable serverName =>
      simp only [step, Option.some.injEq] at h
      subst h
      refine ⟨fun _ => trivial, fun _ => ?_⟩
      unfold World.loadTable
      split
      · rename_i id hid
        refine ⟨hresolves, fun l hl => ?_, hanswers⟩
        rcases List.mem_append.mp hl with hl | hl
        · exact hlookups l hl
        · rw [List.mem_singleton] at hl
          subst hl
          exact fun key hkey => (resolves_iff _ _).mp hresolves serverName id key hid hkey
      · rename_i hnone
        refine ⟨hresolves, hlookups, fun answer hanswer => ?_⟩
        rcases List.mem_append.mp hanswer with hanswer | hanswer
        · exact hanswers answer hanswer
        · rw [List.mem_singleton] at hanswer
          subst hanswer
          intro id key hid
          rw [hnone] at hid
          cases hid
  | getCert i =>
      simp only [step, World.getCert, Option.bind_eq_bind, Option.bind_eq_some_iff] at h
      obtain ⟨lookup, hlookup, h⟩ := h
      cases h
      have hmem : lookup ∈ w.lookups := List.mem_of_getElem? hlookup
      refine ⟨fun _ => trivial, fun _ => ⟨hresolves,
        fun l hl => hlookups l (List.mem_of_mem_eraseIdx hl), fun answer hanswer => ?_⟩⟩
      rcases List.mem_append.mp hanswer with hanswer | hanswer
      · exact hanswers answer hanswer
      · rw [List.mem_singleton] at hanswer
        subst hanswer
        intro id key hid hkey
        have hsame : id = lookup.id := by
          have := hnamed lookup hmem
          rw [hid] at this
          exact Option.some.inj this
        subst hsame
        exact hlookups lookup hmem key hkey

private theorem keepsNamed_of_stuck (w : World Key Diff) (a : Action Key Diff)
    (h : step w a = none) : KeepsNamed w a := by
  cases a with
  | publishCerts =>
      intro p keys table hnow
      rw [step, hnow] at h
      cases h
  | _ => exact trivial

/-- In a run every handshake is right, at every point, exactly when every publication keeps the
certificates that the table still served, or a handshake under way, names. -/
theorem publish_order_iff (table : RouteTable) (certs : CertStore Key) (capacity : Nat)
    (notify : Bool) (as : List (Action Key Diff)) :
    Always step Good (World.new table certs capacity notify) as ↔
      Meets step KeepsNamed (World.new table certs capacity notify) as := by
  have hstaged : Staged (World.new table certs capacity notify : World Key Diff) :=
    ⟨fun p keys table hnow => (by cases hnow), fun l hl => by cases hl⟩
  have hgood : Good (World.new table certs capacity notify : World Key Diff) := by
    refine ⟨(resolves_iff _ _).mpr fun serverName id key _ hkey => hkey, ?_, ?_⟩
    · exact fun l hl => by cases hl
    · exact fun a ha => by cases ha
  exact always_iff_meets staged_step (fun w a _ => keepsNamed_of_stuck w a) good_step hstaged
    hgood as

/-- A table whose only certificate is the default one. -/
def defaultTable (generation id : Nat) : RouteTable :=
  { tls := ⟨[], [], some id⟩, generation := generation }

/-- A rotation: the second generation names a new id, and its keys no longer hold the first. -/
def rotation : List (Action Nat Unit) :=
  [.call (.record 1 1 () (defaultTable 1 7) [(7, 70)] 0), .publishCerts, .storeRoutes, .release,
    .call (.record 2 2 () (defaultTable 2 8) [(8, 80)] 0), .publishCerts, .loadTable [], .getCert 0]

/-- A handshake between the two stores of a rotation is given no certificate. -/
theorem publish_order_rotated :
    ¬ Always step Good (World.new {} ⟨([] : CertKeys Nat)⟩ 10 false : World Nat Unit) rotation := by
  intro h
  obtain ⟨w, hrun, hanswers⟩ : ∃ w, run step
      (World.new {} ⟨([] : CertKeys Nat)⟩ 10 false : World Nat Unit) rotation = some w ∧
        w.answers = [⟨[], ⟨defaultTable 1 7, [(7, 70)]⟩, none⟩] := ⟨_, rfl, rfl⟩
  have hright := (good_of_always h hrun).answers ⟨[], ⟨defaultTable 1 7, [(7, 70)]⟩, none⟩
    (by rw [hanswers]; exact List.mem_singleton_self _)
  cases hright 7 70 rfl rfl

end Ordering

end Ramjet.Proxy.PublishOrder
