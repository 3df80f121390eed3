/- digest: Path rules with their canary and mirror, and the order they are tried in. -/

import Mathlib.Data.Prod.Lex
import Mathlib.Order.Lex
import Ramjet.Router.Balancing

set_option autoImplicit false
set_option relaxedAutoImplicit false

namespace Ramjet.Router.Rule

open Ramjet.Base.Octets
open Ramjet.Router.Balancing

/-- How a rule's path is compared against the request path. -/
inductive PathType where
  | exact
  | prefixed
  | implementationSpecific
  deriving DecidableEq, Repr

/-- Precedence class, low value wins. -/
def PathType.rank : PathType → Nat
  | .exact => 0
  | .prefixed => 1
  | .implementationSpecific => 2

def PathType.asStr : PathType → Bytes
  | .exact => ascii "Exact"
  | .prefixed => ascii "Prefix"
  | .implementationSpecific => ascii "ImplementationSpecific"

/-- A compiled regular expression: the pattern it was built from and its case flag. -/
structure Regex where
  pattern : Bytes
  caseInsensitive : Bool
  deriving DecidableEq, Repr

/-- The regular-expression library: which patterns it compiles, and what they match. -/
structure RegexEngine where
  compiles : Regex → Bool
  isMatch : Regex → Bytes → Bool

/-- A path without its trailing slashes. -/
def trimSlashes (path : Bytes) : Bytes := path.rdropWhile (· == 47)

/-- How many leading bytes of a `Prefix` path must match. -/
def prefixMatchLen (path : Bytes) : Nat := (trimSlashes path).length

/-- Element-wise prefix test. -/
def prefixMatches (rulePath : Bytes) (matchLen : Nat) (path : Bytes) : Bool :=
  matchLen ≤ path.length && matchLen ≤ rulePath.length &&
    path.take matchLen == rulePath.take matchLen &&
    (path.length == matchLen || path[matchLen]? == some 47)

/-- How a canary header's value is tested. -/
inductive HeaderMatch where
  | alwaysNever
  | value (want : Bytes)
  | pattern (re : Regex)
  deriving DecidableEq, Repr

structure HeaderRule where
  name : Bytes
  test : HeaderMatch
  deriving DecidableEq, Repr

/-- The three header annotations, as the builder collected them. -/
structure HeaderSpec where
  name : Bytes
  value : Option Bytes
  pattern : Option Regex
  deriving DecidableEq, Repr

/-- A canary attached to a route. -/
structure CanarySpec where
  backend : BackendId
  header : Option HeaderRule
  cookie : Option Bytes
  weight : Nat
  weightTotal : Nat
  deriving DecidableEq, Repr

def CanarySpec.new (backend : BackendId) (header : Option HeaderSpec) (cookie : Option Bytes)
    (weight weightTotal : Nat) : CanarySpec :=
  let header := header.map fun spec =>
    let test : HeaderMatch :=
      match spec.value, spec.pattern with
      | _, some re => .pattern re
      | some v, none => .value v
      | none, none => .alwaysNever
    ⟨spec.name, test⟩
  ⟨backend, header, cookie, weight, weightTotal⟩

/-- What a canary header decides: divert, keep, or leave it to the next rule. -/
def HeaderMatch.decide (rx : RegexEngine) (test : HeaderMatch) (value : Bytes) : Option Bool :=
  match test with
  | .alwaysNever =>
      if value = ascii "always" then some true
      else if value = ascii "never" then some false
      else none
  | .value want => if value = want then some true else none
  | .pattern re => if rx.isMatch re value then some true else none

/-- Whether this request goes to the canary: header, then cookie, then weight. -/
def CanarySpec.decide (rx : RegexEngine) (c : CanarySpec) (headerValue cookieValue : Option Bytes)
    (roll : Nat) : Bool :=
  let byHeader :=
    match c.header, headerValue with
    | some rule, some value => rule.test.decide rx value
    | _, _ => none
  let byCookie :=
    match c.cookie, cookieValue with
    | some _, some value => HeaderMatch.alwaysNever.decide rx value
    | _, _ => none
  match byHeader, byCookie with
  | some verdict, _ => verdict
  | none, some verdict => verdict
  | none, none => 0 < c.weight && roll < c.weight

def MIRROR_PERCENT_TOTAL : Nat := 100

/-- A mirror attached to a route. -/
structure MirrorSpec where
  backend : BackendId
  percent : Nat
  host : Option Bytes
  deriving DecidableEq, Repr

def MirrorSpec.new (backend : BackendId) (percent : Nat) (host : Option Bytes) : MirrorSpec :=
  ⟨backend, min percent MIRROR_PERCENT_TOTAL, host⟩

def MirrorSpec.sample (m : MirrorSpec) (roll : Nat) : Bool := 0 < m.percent && roll < m.percent

/-- The optional behaviour a rule can carry. -/
structure RuleExtras where
  canary : Option CanarySpec
  mirror : Option MirrorSpec
  deriving DecidableEq, Repr

def RuleExtras.build (canary : Option CanarySpec) (mirror : Option MirrorSpec) :
    Option RuleExtras :=
  if canary.isNone && mirror.isNone then none else some ⟨canary, mirror⟩

/-- One path rule inside a virtual host. -/
structure PathRule where
  path : Bytes
  matchLen : Nat
  pathType : PathType
  regex : Option Regex
  backend : BackendId
  statsIndex : Nat
  extras : Option RuleExtras
  deriving DecidableEq, Repr

def U32_SIZE : Nat := 4294967296

/-- A rule keeps its match length in 32 bits. -/
def PathRule.new (path : Bytes) (pathType : PathType) (regex : Option Regex)
    (backend : BackendId) (extras : Option RuleExtras) : PathRule :=
  let matchLen :=
    match pathType with
    | .prefixed => prefixMatchLen path % U32_SIZE
    | _ => 0
  ⟨path, matchLen, pathType, regex, backend, 0, extras⟩

def PathRule.setStatsIndex (rule : PathRule) (index : Nat) : PathRule :=
  { rule with statsIndex := index }

def PathRule.matches (rx : RegexEngine) (rule : PathRule) (path : Bytes) : Bool :=
  match rule.pathType with
  | .exact => path == rule.path
  | .prefixed => prefixMatches rule.path rule.matchLen path
  | .implementationSpecific => rule.regex.any fun re => rx.isMatch re path

/-- Exact first, then Prefix from longest to shortest, then regex. -/
def PathRule.sortKey (rule : PathRule) : Nat ×ₗ Natᵒᵈ :=
  toLex (rule.pathType.rank, OrderDual.toDual rule.matchLen)

def PathRule.canary (rule : PathRule) : Option CanarySpec := rule.extras.bind (·.canary)

def PathRule.mirror (rule : PathRule) : Option MirrorSpec := rule.extras.bind (·.mirror)

end Ramjet.Router.Rule
