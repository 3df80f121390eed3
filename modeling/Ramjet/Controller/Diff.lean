/- digest: What changed between two compiled tables, written the way an operator reads it. -/

import Mathlib.Data.List.Sort
import Ramjet.Base.Comparison
import Ramjet.Base.Text
import Ramjet.Router.RouteNumbers

set_option autoImplicit false
set_option relaxedAutoImplicit false

namespace Ramjet.Controller.Diff

open Ramjet.Base.Octets
open Ramjet.Base.Text
open Ramjet.Base.AssocMap
open Ramjet.Base.Comparison
open Ramjet.Router.Balancing
open Ramjet.Router.Rule
open Ramjet.Router.Table
open Ramjet.Router.Stats
open Ramjet.Router.RouteNumbers

section Reading

/-- A route's identity, as it appears on both sides of a comparison. -/
structure RouteKey where
  host : Bytes
  path : Bytes
  pathType : Bytes
  deriving DecidableEq, Repr

/-- What one route sends where; a mirror is kept as it will be reported. -/
structure RouteTarget where
  backend : Bytes
  endpoints : Nat
  protocol : BackendProtocol
  mirror : Option Bytes
  deriving DecidableEq, Repr

/-- A mirror before it is written: its backend's name, its percentage and its host. -/
structure MirrorFacts where
  target : Bytes
  percent : Nat
  host : Option Bytes
  deriving DecidableEq, Repr

def mirrorFacts (t : RouteTable) (rule : PathRule) : Option MirrorFacts :=
  rule.mirror.map fun mirror =>
    ⟨((t.backends[mirror.backend]?).map (·.name)).getD [], mirror.percent, mirror.host⟩

def MirrorFacts.text (m : MirrorFacts) : Bytes :=
  match m.host with
  | some host =>
      m.target ++ ascii " (" ++ decimal m.percent ++ ascii "%, host " ++ host ++ ascii ")"
  | none => m.target ++ ascii " (" ++ decimal m.percent ++ ascii "%)"

def routeTarget (t : RouteTable) (rule : PathRule) : RouteTarget :=
  let backend := t.backends[rule.backend]?
  { backend := (backend.map (·.name)).getD []
    endpoints := (backend.map (·.endpoints.length)).getD 0
    protocol := (backend.map (·.protocol)).getD .http1
    mirror := (mirrorFacts t rule).map MirrorFacts.text }

def routeEntries (t : RouteTable) : List (RouteKey × RouteTarget) :=
  (routes t).map fun e =>
    (⟨spelledHost e.1, e.2.path, e.2.pathType.asStr⟩, routeTarget t e.2)

-- The source keeps its maps and sets sorted; every list made from them is sorted in the end.
def routesOf : Option RouteTable → Map RouteKey RouteTarget
  | none => []
  | some t => collect (routeEntries t)

def hostsOf : Option RouteTable → Map Bytes Unit
  | none => []
  | some t => collect ((virtualHosts t).map fun e => (spelledHost e.1, ()))

/-- Every name a certificate map answers for, the default under the catch-all. -/
def certEntries (m : SniMap) : List (RouteHost × Nat) :=
  m.exact.map (fun e => (.exact e.1, e.2)) ++ m.wildcard.map (fun e => (.wildcard e.1, e.2)) ++
    m.default.toList.map fun id => (.catchAll, id)

def certsOf : Option RouteTable → Map Bytes Nat
  | none => []
  | some t => collect ((certEntries t.tls).map fun e => (spelledHost e.1, e.2))

def defaultBackendName (t : RouteTable) : Option Bytes :=
  (t.defaultBackend.bind fun id => t.backends[id]?).map (·.name)

end Reading

section Comparing

/-- The difference between two compiled generations. -/
@[ext] structure ConfigDiff where
  «from» : Option Nat := none
  «to» : Nat := 0
  routesAdded : List Bytes := []
  routesRemoved : List Bytes := []
  backendsChanged : List Bytes := []
  certsRotated : List Bytes := []
  hostsAdded : List Bytes := []
  hostsRemoved : List Bytes := []
  mirrorsAdded : List Bytes := []
  mirrorsRemoved : List Bytes := []
  defaultBackendChanged : Bool := false
  defaultBackend : Option Bytes := none
  certsAdded : Nat := 0
  certsRemoved : Nat := 0
  deriving DecidableEq, Repr

def describe (key : RouteKey) (target : RouteTarget) : Bytes :=
  key.host ++ ascii " " ++ key.path ++ ascii " -> " ++ target.backend

def describeMirror (key : RouteKey) (mirror : Bytes) : Bytes :=
  key.host ++ ascii " " ++ key.path ++ ascii " -> " ++ mirror

/-- One changed route: what it had, what it has, and what is counted. -/
structure Change where
  key : RouteKey
  was : Bytes
  now : Bytes
  unit : Bytes
  deriving DecidableEq, Repr

def Change.text (c : Change) : Bytes :=
  c.key.host ++ ascii " " ++ c.key.path ++ ascii ": " ++ c.was ++ ascii " -> " ++ c.now ++ c.unit

/-- The first thing that differs: the backend, then the protocol, then the number of endpoints. -/
def changeOf (key : RouteKey) (was target : RouteTarget) : Option Change :=
  if was.backend ≠ target.backend then some ⟨key, was.backend, target.backend, []⟩
  else if was.protocol ≠ target.protocol then
    some ⟨key, was.protocol.asStr, target.protocol.asStr, ascii " upstream"⟩
  else if was.endpoints ≠ target.endpoints then
    some ⟨key, decimal was.endpoints, decimal target.endpoints, ascii " endpoints"⟩
  else none

/-- One route of the new table, against what the old one had under its key. -/
def noteRoute (before : Map RouteKey RouteTarget) (diff : ConfigDiff)
    (e : RouteKey × RouteTarget) : ConfigDiff :=
  let (key, target) := e
  let diff :=
    match get before key with
    | none => { diff with routesAdded := diff.routesAdded ++ [describe key target] }
    | some was =>
        match changeOf key was target with
        | some change => { diff with backendsChanged := diff.backendsChanged ++ [change.text] }
        | none => diff
  let had := (get before key).bind (·.mirror)
  if had ≠ target.mirror then
    { diff with
      mirrorsAdded := diff.mirrorsAdded ++ target.mirror.toList.map (describeMirror key)
      mirrorsRemoved := diff.mirrorsRemoved ++ had.toList.map (describeMirror key) }
  else diff

/-- One route of the old table, where the new one has nothing under its key. -/
def noteGone (after : Map RouteKey RouteTarget) (diff : ConfigDiff)
    (e : RouteKey × RouteTarget) : ConfigDiff :=
  let (key, target) := e
  if contains after key then diff
  else
    { diff with
      routesRemoved := diff.routesRemoved ++ [describe key target]
      mirrorsRemoved := diff.mirrorsRemoved ++ target.mirror.toList.map (describeMirror key) }

/-- One certificate of the new table, against the one the old table had for its name. -/
def noteCert (before : Map Bytes Nat) (diff : ConfigDiff) (e : Bytes × Nat) : ConfigDiff :=
  match get before e.1 with
  | none =>
      { diff with certsAdded := diff.certsAdded + 1, certsRotated := diff.certsRotated ++ [e.1] }
  | some was =>
      if was ≠ e.2 then { diff with certsRotated := diff.certsRotated ++ [e.1] } else diff

def noteGoneCert (after : Map Bytes Nat) (diff : ConfigDiff) (e : Bytes × Nat) : ConfigDiff :=
  if contains after e.1 then diff
  else
    { diff with
      certsRemoved := diff.certsRemoved + 1
      certsRotated := diff.certsRotated ++ [e.1] }

def sortTexts (texts : List Bytes) : List Bytes :=
  texts.insertionSort fun a b => textKey a ≤ textKey b

def ConfigDiff.sorted (diff : ConfigDiff) : ConfigDiff :=
  { diff with
    routesAdded := sortTexts diff.routesAdded
    routesRemoved := sortTexts diff.routesRemoved
    backendsChanged := sortTexts diff.backendsChanged
    certsRotated := sortTexts diff.certsRotated
    hostsAdded := sortTexts diff.hostsAdded
    hostsRemoved := sortTexts diff.hostsRemoved
    mirrorsAdded := sortTexts diff.mirrorsAdded
    mirrorsRemoved := sortTexts diff.mirrorsRemoved }

/-- Compares two compiled tables; without a previous one everything is added. -/
def ConfigDiff.compute (previous : Option RouteTable) (next : RouteTable) : ConfigDiff :=
  let before := routesOf previous
  let after := routesOf (some next)
  let diff : ConfigDiff := { «from» := previous.map (·.generation), «to» := next.generation }
  let diff := after.foldl (noteRoute before) diff
  let diff := before.foldl (noteGone after) diff
  let hostsBefore := hostsOf previous
  let hostsAfter := hostsOf (some next)
  let diff :=
    { diff with
      hostsAdded := (onlyIn hostsAfter hostsBefore).map (·.1)
      hostsRemoved := (onlyIn hostsBefore hostsAfter).map (·.1) }
  let certsBefore := certsOf previous
  let certsAfter := certsOf (some next)
  let diff := certsAfter.foldl (noteCert certsBefore) diff
  let diff := certsBefore.foldl (noteGoneCert certsAfter) diff
  let defaultBefore := previous.bind defaultBackendName
  let defaultAfter := defaultBackendName next
  let diff :=
    { diff with
      defaultBackend := defaultAfter
      defaultBackendChanged := defaultBefore != defaultAfter }
  diff.sorted

/-- Whether nothing at all moved. -/
def ConfigDiff.isEmpty (d : ConfigDiff) : Bool :=
  d.routesAdded.isEmpty && d.routesRemoved.isEmpty && d.backendsChanged.isEmpty &&
    d.certsRotated.isEmpty && d.hostsAdded.isEmpty && d.hostsRemoved.isEmpty &&
    d.mirrorsAdded.isEmpty && d.mirrorsRemoved.isEmpty && !d.defaultBackendChanged

end Comparing

section Summary

/-- The certificates that were replaced: neither new names nor gone ones. -/
def ConfigDiff.replaced (d : ConfigDiff) : Nat :=
  d.certsRotated.length - (d.certsAdded + d.certsRemoved)

/-- A count with its noun, left out when there is nothing to count. -/
def counted (entry : Nat × Bytes × Bytes) : List Bytes :=
  let (count, singular, plural) := entry
  if 0 < count then [decimal count ++ ascii " " ++ if count = 1 then singular else plural] else []

def ConfigDiff.parts (d : ConfigDiff) : List Bytes :=
  ([(d.routesAdded.length, ascii "route added", ascii "routes added"),
    (d.routesRemoved.length, ascii "route removed", ascii "routes removed"),
    (d.backendsChanged.length, ascii "backend changed", ascii "backends changed"),
    (d.hostsAdded.length, ascii "host added", ascii "hosts added"),
    (d.hostsRemoved.length, ascii "host removed", ascii "hosts removed"),
    (d.mirrorsAdded.length, ascii "mirror added", ascii "mirrors added"),
    (d.mirrorsRemoved.length, ascii "mirror removed", ascii "mirrors removed"),
    (d.certsAdded, ascii "cert added", ascii "certs added"),
    (d.certsRemoved, ascii "cert removed", ascii "certs removed"),
    (d.replaced, ascii "cert rotated", ascii "certs rotated")].flatMap counted) ++
    if d.defaultBackendChanged then
      match d.defaultBackend with
      | some backend => [ascii "default backend now " ++ backend]
      | none => [ascii "default backend cleared"]
    else []

/-- The one line that goes in a log, an Event and a chat message. -/
def ConfigDiff.summary (d : ConfigDiff) : Bytes :=
  let text := if d.parts.isEmpty then ascii "no visible change" else joinBytes (ascii ", ") d.parts
  -- The arrow between the generations is three bytes of UTF-8.
  text ++ ascii " (gen " ++ decimal (d.«from».getD 0) ++ [226, 134, 146] ++ decimal d.«to» ++
    ascii ")"

end Summary

end Ramjet.Controller.Diff
