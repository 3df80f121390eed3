/- digest: The annotation vocabulary of an Ingress: canary, mirror, protocol and promotion. -/

import Mathlib.Data.List.Destutter
import Mathlib.Data.List.Sort
import Ramjet.Base.Text
import Ramjet.Controller.Objects
import Ramjet.Router.Balancing

set_option autoImplicit false
set_option relaxedAutoImplicit false

namespace Ramjet.Controller.Annotations

open Ramjet.Base.Octets
open Ramjet.Base.Text
open Ramjet.Base.AssocMap
open Ramjet.Router.Balancing
open Ramjet.Controller.Objects

section Keys

def ANNOTATION_CANARY : Bytes := ascii "nginx.ingress.kubernetes.io/canary"
def ANNOTATION_CANARY_WEIGHT : Bytes := ascii "nginx.ingress.kubernetes.io/canary-weight"
def ANNOTATION_CANARY_WEIGHT_TOTAL : Bytes :=
  ascii "nginx.ingress.kubernetes.io/canary-weight-total"
def ANNOTATION_CANARY_BY_HEADER : Bytes := ascii "nginx.ingress.kubernetes.io/canary-by-header"
def ANNOTATION_CANARY_BY_HEADER_VALUE : Bytes :=
  ascii "nginx.ingress.kubernetes.io/canary-by-header-value"
def ANNOTATION_CANARY_BY_HEADER_PATTERN : Bytes :=
  ascii "nginx.ingress.kubernetes.io/canary-by-header-pattern"
def ANNOTATION_CANARY_BY_COOKIE : Bytes := ascii "nginx.ingress.kubernetes.io/canary-by-cookie"
def ANNOTATION_BACKEND_PROTOCOL : Bytes := ascii "nginx.ingress.kubernetes.io/backend-protocol"
def ANNOTATION_MIRROR_BACKEND : Bytes := ascii "ramjet.dev/mirror-backend"
def ANNOTATION_MIRROR_PERCENT : Bytes := ascii "ramjet.dev/mirror-percent"
def ANNOTATION_MIRROR_HOST : Bytes := ascii "ramjet.dev/mirror-host"
def ANNOTATION_AUTO_PROMOTE : Bytes := ascii "ramjet.dev/auto-promote"
def ANNOTATION_AUTO_PROMOTE_INTERVAL : Bytes := ascii "ramjet.dev/auto-promote-interval"
def ANNOTATION_AUTO_PROMOTE_STEPS : Bytes := ascii "ramjet.dev/auto-promote-steps"
def ANNOTATION_AUTO_PROMOTE_MAX_5XX : Bytes := ascii "ramjet.dev/auto-promote-max-5xx-percent"
def ANNOTATION_AUTO_PROMOTE_MAX_LATENCY : Bytes :=
  ascii "ramjet.dev/auto-promote-max-latency-factor"
def ANNOTATION_AUTO_PROMOTE_MIN_REQUESTS : Bytes := ascii "ramjet.dev/auto-promote-min-requests"
def ANNOTATION_AUTO_PROMOTE_STATUS : Bytes := ascii "ramjet.dev/auto-promote-status"
def ANNOTATION_OBSERVED_GENERATION : Bytes := ascii "ramjet.dev/observed-generation"
def ANNOTATION_LEGACY_CLASS : Bytes := ascii "kubernetes.io/ingress.class"
def ANNOTATION_IS_DEFAULT_CLASS : Bytes := ascii "ingressclass.kubernetes.io/is-default-class"

def DEFAULT_MIRROR_PERCENT : Nat := 100
def DEFAULT_PROMOTE_INTERVAL : Nat := 60
def DEFAULT_PROMOTE_STEPS : List Nat := [5, 10, 25, 50, 100]
def DEFAULT_PROMOTE_MIN_REQUESTS : Nat := 50

def STATUS_ROLLED_BACK : Bytes := ascii "rolled-back"

end Keys

def isTrue (value : Bytes) : Bool := eqIgnoreAsciiCase (trim value) (ascii "true")

/-- An annotation without surrounding whitespace; an empty one counts as absent. -/
def getTrimmed (annotations : Annotations) (key : Bytes) : Option Bytes :=
  ((get annotations key).map trim).filter (! ·.isEmpty)

section Canary

/-- The canary annotations on one Ingress, as written. -/
structure CanaryAnnotations where
  enabled : Bool
  weight : Nat
  weightTotal : Nat
  header : Option Bytes
  headerValue : Option Bytes
  headerPattern : Option Bytes
  cookie : Option Bytes
  invalid : List Bytes
  deriving DecidableEq, Repr

/-- A number, or zero and its own key where it is not one. -/
def canaryNumber (annotations : Annotations) (key : Bytes) : Nat × List Bytes :=
  match get annotations key with
  | none => (0, [])
  | some raw =>
      match parseUnsigned U32_MAX (trim raw) with
      | some v => (v, [])
      | none => (0, [key])

def CanaryAnnotations.parse (annotations : Annotations) : CanaryAnnotations :=
  let weight := canaryNumber annotations ANNOTATION_CANARY_WEIGHT
  let weightTotal := canaryNumber annotations ANNOTATION_CANARY_WEIGHT_TOTAL
  { enabled := (get annotations ANNOTATION_CANARY).any isTrue
    weight := weight.1
    weightTotal := weightTotal.1
    header := get annotations ANNOTATION_CANARY_BY_HEADER
    headerValue := get annotations ANNOTATION_CANARY_BY_HEADER_VALUE
    headerPattern := get annotations ANNOTATION_CANARY_BY_HEADER_PATTERN
    cookie := get annotations ANNOTATION_CANARY_BY_COOKIE
    invalid := weight.2 ++ weightTotal.2 }

/-- A canary that can never divert anything. -/
def CanaryAnnotations.isInert (c : CanaryAnnotations) : Bool :=
  c.weight == 0 && c.header.isNone && c.cookie.isNone

end Canary

section Mirror

/-- The mirror annotations on one Ingress, as written. -/
structure MirrorAnnotations where
  backend : Option Bytes
  percent : Nat
  host : Option Bytes
  invalid : List Bytes
  deriving DecidableEq, Repr

/-- A percentage, or the default and its own key where it is not one. -/
def mirrorPercent (annotations : Annotations) : Nat × List Bytes :=
  match getTrimmed annotations ANNOTATION_MIRROR_PERCENT with
  | none => (DEFAULT_MIRROR_PERCENT, [])
  | some raw =>
      match (parseUnsigned U32_MAX raw).filter (· ≤ 100) with
      | some value => (value, [])
      | none => (DEFAULT_MIRROR_PERCENT, [ANNOTATION_MIRROR_PERCENT])

def MirrorAnnotations.parse (annotations : Annotations) : MirrorAnnotations :=
  let percent := mirrorPercent annotations
  { backend := getTrimmed annotations ANNOTATION_MIRROR_BACKEND
    percent := percent.1
    host := getTrimmed annotations ANNOTATION_MIRROR_HOST
    invalid := percent.2 }

def MirrorAnnotations.enabled (m : MirrorAnnotations) : Bool := m.backend.isSome

theorem mirrorPercent_le (annotations : Annotations) : (mirrorPercent annotations).1 ≤ 100 := by
  unfold mirrorPercent
  split
  · exact le_rfl
  · split
    · rename_i value hvalue
      rw [Option.filter_eq_some_iff] at hvalue
      simpa using hvalue.2
    · exact le_rfl

end Mirror

section Protocol

/-- What `backend-protocol` resolved to, and the value that was not honoured. -/
structure BackendProtocolAnnotation where
  protocol : BackendProtocol := .http1
  unsupported : Option Bytes := none
  deriving DecidableEq, Repr

def BackendProtocolAnnotation.parse (annotations : Annotations) : BackendProtocolAnnotation :=
  match getTrimmed annotations ANNOTATION_BACKEND_PROTOCOL with
  | none => {}
  | some raw =>
      if eqIgnoreAsciiCase raw (ascii "HTTP") then {}
      else if eqIgnoreAsciiCase raw (ascii "GRPC") then ⟨.h2c, none⟩
      else ⟨.http1, some raw⟩

end Protocol

section Promotion

/-- The floating-point numbers the promotion thresholds are read and written as. -/
structure Floats (F : Type) where
  parse : Bytes → Option F
  isFinite : F → Bool
  le : F → F → Bool
  zero : F
  one : F
  /-- One per cent of responses. -/
  maxFailures : F
  /-- One and a half times the stable mean. -/
  maxLatency : F
  /-- The number with six decimals. -/
  fixed6 : F → Bytes

variable {F : Type} (fl : Floats F)

/-- The automatic-promotion annotations on one canary Ingress, as written. -/
structure PromotionAnnotations (F : Type) where
  enabled : Bool
  interval : Nat
  steps : List Nat
  max5xxPercent : F
  maxLatencyFactor : F
  minRequests : Nat
  status : Option Bytes
  invalid : List Bytes

/-- A value read from an annotation, or its default and the key that could not be read. -/
def readOr {α : Type} (annotations : Annotations) (key : Bytes) (fallback : α)
    (read : Bytes → Option α) : α × List Bytes :=
  match getTrimmed annotations key with
  | none => (fallback, [])
  | some raw =>
      match read raw with
      | some value => (value, [])
      | none => (fallback, [key])

def U64_LIMIT : Nat := 18446744073709551615

/-- The number of a duration and the seconds its unit stands for. -/
def durationParts (raw : Bytes) : Option (Bytes × Nat) :=
  match raw.getLast? with
  | none => none
  | some 115 => some (raw.dropLast, 1)
  | some 109 => some (raw.dropLast, 60)
  | some 104 => some (raw.dropLast, 3600)
  | some _ => some (raw, 1)

/-- Seconds, minutes or hours, or a bare number of seconds. -/
def parseDuration (raw : Bytes) : Option Nat := do
  let (value, multiplier) ← durationParts (trim raw)
  let seconds ← parseUnsigned U64_LIMIT (trim value)
  if 0 < seconds then some (min (seconds * multiplier) U64_LIMIT) else none

def parseStep (field : Bytes) : Option Nat :=
  (parseUnsigned U32_MAX field).filter fun step => 0 < step && step ≤ 100

/-- Ascending, deduplicated weights. -/
def parseSteps (raw : Bytes) : Option (List Nat) := do
  let fields := ((raw.splitOn 44).map trim).filter (! ·.isEmpty)
  let steps ← fields.mapM parseStep
  if steps.isEmpty then none
  else some ((steps.insertionSort (· ≤ ·)).destutter (· ≠ ·))

def PromotionAnnotations.parse (annotations : Annotations) : PromotionAnnotations F :=
  let interval := readOr annotations ANNOTATION_AUTO_PROMOTE_INTERVAL DEFAULT_PROMOTE_INTERVAL
    parseDuration
  let steps := readOr annotations ANNOTATION_AUTO_PROMOTE_STEPS DEFAULT_PROMOTE_STEPS parseSteps
  let max5xx := readOr annotations ANNOTATION_AUTO_PROMOTE_MAX_5XX fl.maxFailures fun raw =>
    (fl.parse raw).filter fun value => fl.isFinite value && fl.le fl.zero value
  let latency := readOr annotations ANNOTATION_AUTO_PROMOTE_MAX_LATENCY fl.maxLatency fun raw =>
    (fl.parse raw).filter fun value => fl.isFinite value && fl.le fl.one value
  let minRequests := readOr annotations ANNOTATION_AUTO_PROMOTE_MIN_REQUESTS
    DEFAULT_PROMOTE_MIN_REQUESTS (parseUnsigned U64_LIMIT)
  { enabled := (getTrimmed annotations ANNOTATION_AUTO_PROMOTE).any isTrue
    interval := interval.1
    steps := steps.1
    max5xxPercent := max5xx.1
    maxLatencyFactor := latency.1
    minRequests := minRequests.1
    status := getTrimmed annotations ANNOTATION_AUTO_PROMOTE_STATUS
    invalid := interval.2 ++ steps.2 ++ max5xx.2 ++ latency.2 ++ minRequests.2 }

end Promotion

end Ramjet.Controller.Annotations
