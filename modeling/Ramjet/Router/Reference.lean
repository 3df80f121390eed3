/- digest: What routing is for, stated on the declared rules without any compiled form. -/

import Ramjet.Base.Segments
import Ramjet.Router.Builder

set_option autoImplicit false
set_option relaxedAutoImplicit false

namespace Ramjet.Router.Reference

open Ramjet.Base.Octets
open Ramjet.Base.FirstHit
open Ramjet.Router.Host
open Ramjet.Router.Rule
open Ramjet.Router.Table
open Ramjet.Router.Builder

/-- A bracketed literal up to its bracket, else the text before the first colon. -/
def cutPort (header : Bytes) : Option Bytes :=
  if header.head? = some 91 then
    if (93 : UInt8) ∈ header then some (header.takeWhile (· != 93) ++ [93]) else none
  else some (header.takeWhile (· != 58))

def dropRootDot (name : Bytes) : Bytes :=
  if name.getLast? = some 46 then name.dropLast else name

/-- The name a `Host` header stands for; an empty or over-long one stands for none. -/
def normalizeHeader (header : Bytes) : Option Bytes := do
  let name ← cutPort header
  let name := dropRootDot name
  if name = [] ∨ 253 < name.length then none else some (name.map toAsciiLowercase)

/-- A name without its first label, which may not be empty. -/
def minusLabel (name : Bytes) : Option Bytes :=
  match splitOnce (46 : UInt8) name with
  | none => none
  | some (label, rest) => if label = [] then none else some rest

def orCatchAll (slots : List HostSlot) : Option HostSlot :=
  if HostSlot.catchAll ∈ slots then some .catchAll else none

/-- The virtual host a header selects: exact name, then one-label wildcard, then catch-all. -/
def selectSlot (slots : List HostSlot) (header : Bytes) : Option HostSlot :=
  match normalizeHeader header with
  | none => orCatchAll slots
  | some name =>
      if HostSlot.exact name ∈ slots then some (.exact name)
      else
        match minusLabel name with
        | some parent =>
            if HostSlot.wildcard parent ∈ slots then some (.wildcard parent)
            else orCatchAll slots
        | none => orCatchAll slots

/-- The segments of a rule's path, trailing slashes ignored. -/
def ruleSegments (path : Bytes) : List Bytes := (trimSlashes path).splitOn 47

variable (rx : RegexEngine)

def matchesExactly (path : Bytes) (d : RouteDraft) : Bool :=
  d.pathType = .exact ∧ d.path = path

def matchesSegments (path : Bytes) (d : RouteDraft) : Bool :=
  d.pathType = .prefixed ∧ ruleSegments d.path <+: path.splitOn 47

def matchesPattern (path : Bytes) (d : RouteDraft) : Bool :=
  d.pathType = .implementationSpecific ∧ rx.isMatch (pathRegex d.path) path

/-- The declared rule that answers a path: exact, then most segments, then first pattern. -/
def pickRule (rules : List RouteDraft) (path : Bytes) : Option RouteDraft :=
  match rules.find? (matchesExactly path) with
  | some d => some d
  | none =>
      match firstMin (fun d => OrderDual.toDual (ruleSegments d.path).length)
          (rules.filter (matchesSegments path)) with
      | some d => some d
      | none => rules.find? (matchesPattern rx path)

def hostMatchOf : HostSlot → HostMatch
  | .exact _ => .exact
  | .wildcard _ => .wildcard
  | .catchAll => .catchAll

/-- An answer in declared terms: a registered backend, the rule, and how the host resolved. -/
structure Answer where
  backend : BackendDraft
  rule : Option (Bytes × PathType)
  hostMatch : HostMatch
  deriving DecidableEq

def RouteTableBuilder.declared (b : RouteTableBuilder) (name : Bytes) : Option BackendDraft :=
  b.backends.find? fun d => d.name = name

/-- The rules declared for one virtual host, in registration order. -/
def rulesOf (b : RouteTableBuilder) (slot : HostSlot) : List RouteDraft :=
  b.routes.filter fun d => d.slot = slot

/-- The declared rule that answers a request, with the virtual host it was found in. -/
def referenceRule (b : RouteTableBuilder) (host path : Bytes) : Option (HostSlot × RouteDraft) := do
  let slot ← selectSlot (b.routes.map (·.slot)) host
  let d ← pickRule rx (rulesOf b slot) path
  return (slot, d)

/-- The reference semantics of one request: a rule of the selected host, else the default. -/
def referenceMatch (b : RouteTableBuilder) (host path : Bytes) : Option Answer :=
  match referenceRule rx b host path with
  | some (slot, d) =>
      (RouteTableBuilder.declared b d.backend).map fun backend =>
        ⟨backend, some (d.path, d.pathType), hostMatchOf slot⟩
  | none => do
      let name ← b.defaultBackend
      let backend ← RouteTableBuilder.declared b name
      return ⟨backend, none, .defaultBackend⟩

/-- What a match result says in declared terms. -/
def answerOf (r : MatchResult) : Answer where
  backend := ⟨r.backend.name, ⟨r.backend.policy, r.backend.protocol⟩, r.backend.endpoints⟩
  rule := r.rule.map fun rule => (rule.path, rule.pathType)
  hostMatch := r.hostMatch

end Ramjet.Router.Reference
