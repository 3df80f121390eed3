/- digest: What decides whether a canary takes a request: the first decisive of header, cookie, roll. -/

import Mathlib.Data.List.Range
import Ramjet.Base.Outcome
import Ramjet.Engine.Route
import Ramjet.Router.Builder

set_option autoImplicit false
set_option relaxedAutoImplicit false

namespace Ramjet.Router.CanaryDecision

open Ramjet.Base.Octets
open Ramjet.Base.Outcome
open Ramjet.Router.Balancing
open Ramjet.Router.Rule
open Ramjet.Router.Builder
open Ramjet.Engine.Route (below)

section Spec

variable (rx : RegexEngine) (rules : CanaryRules)

/-- The denominator of the weight: what the annotations say, or a hundred. -/
def total : Nat := if rules.weightTotal = 0 then DEFAULT_WEIGHT_TOTAL else rules.weightTotal

end Spec

section Accepted

variable {rx : RegexEngine} {rules : CanaryRules} {slot : HostSlot} {path : Bytes}
  {d : CanaryDraft}

/-- The canary the builder serves for a draft, its backend resolved. -/
def served (d : CanaryDraft) (backend : BackendId) : CanarySpec :=
  CanarySpec.new backend d.header d.cookie d.weight d.weightTotal

/-- What the code's own header rule decides. -/
private def byHeader (rx : RegexEngine) (c : CanarySpec) (value : Option Bytes) : Option Bool :=
  match c.header, value with
  | some rule, some value => rule.test.decide rx value
  | _, _ => none

private def byCookie (rx : RegexEngine) (c : CanarySpec) (value : Option Bytes) : Option Bool :=
  match c.cookie, value with
  | some _, some value => HeaderMatch.alwaysNever.decide rx value
  | _, _ => none

end Accepted

end Ramjet.Router.CanaryDecision
