/- digest: Route keys, and everything the translator can refuse with its wording. -/

import Ramjet.Controller.Endpoints
import Ramjet.Controller.Secrets
import Ramjet.Router.Builder

set_option autoImplicit false
set_option relaxedAutoImplicit false

namespace Ramjet.Controller.Warnings

open Ramjet.Base.Octets
open Ramjet.Base.Text
open Ramjet.Router.Balancing
open Ramjet.Router.Rule
open Ramjet.Router.Builder
open Ramjet.Controller.Objects
open Ramjet.Controller.Annotations
open Ramjet.Controller.Config
open Ramjet.Controller.Endpoints
open Ramjet.Controller.Secrets

/-- Identity of a planned route; no host is the catch-all. -/
structure RouteKey where
  host : Option Bytes
  path : Bytes
  pathType : PathType
  deriving DecidableEq, Repr

/-- Total order for deterministic registration. -/
def RouteKey.sortKey (k : RouteKey) : List Nat ×ₗ Bool ×ₗ List Nat ×ₗ Nat :=
  toLex (textKey (k.host.getD []), toLex (k.host.isNone, toLex (textKey k.path, k.pathType.rank)))

theorem RouteKey.sortKey_injective : Function.Injective RouteKey.sortKey := by
  rintro ⟨host, path, pathType⟩ ⟨host', path', pathType'⟩ h
  simp only [RouteKey.sortKey, EmbeddingLike.apply_eq_iff_eq, Prod.mk.injEq] at h
  obtain ⟨hhost, hnone, hpath, hrank⟩ := h
  obtain rfl := textKey_injective hpath
  have htype : pathType = pathType' := by
    cases pathType <;> cases pathType' <;> simp_all [PathType.rank]
  have hname : host = host' := by
    cases host <;> cases host' <;> simp_all [textKey_injective.eq_iff]
  rw [htype, hname]

/-- On one host, keys are ordered by their paths first. -/
theorem RouteKey.path_le_of_sortKey_le {k k' : RouteKey} (hhost : k.host = k'.host)
    (h : k.sortKey ≤ k'.sortKey) : textKey k.path ≤ textKey k'.path := by
  rw [RouteKey.sortKey, RouteKey.sortKey, hhost, Prod.Lex.toLex_le_toLex] at h
  simp only [lt_self_iff_false, false_or, true_and, Prod.Lex.toLex_le_toLex] at h
  rcases h with hlt | ⟨heq, -⟩
  · exact hlt.le
  · exact heq.le

/-- A route's host, path and type, for a diagnostic an operator can act on. -/
def describe (key : RouteKey) : Bytes :=
  key.host.getD (ascii "*") ++ key.path ++ ascii " (" ++ key.pathType.asStr ++ ascii ")"

/-- What kind of thing went wrong. -/
inductive WarningKind where
  | unknownClass
  | routeConflict
  | unsupportedBackend
  | serviceUnresolved
  | externalNameService
  | endpointsSkipped
  | invalidRoute
  | invalidAnnotation
  | canaryOrphan
  | canaryConflict
  | canaryInert
  | mirrorRejected
  | tlsSecret
  | tlsConflict
  | tlsHostless
  | defaultBackendConflict
  | backendProtocolConflict
  deriving DecidableEq, Repr

/-- The reason an Event about it gives. -/
def WarningKind.asStr : WarningKind → Bytes
  | .unknownClass => ascii "UnknownClass"
  | .routeConflict => ascii "RouteConflict"
  | .unsupportedBackend => ascii "UnsupportedBackend"
  | .serviceUnresolved => ascii "ServiceUnresolved"
  | .externalNameService => ascii "ExternalNameService"
  | .endpointsSkipped => ascii "EndpointsSkipped"
  | .invalidRoute => ascii "InvalidRoute"
  | WarningKind.invalidAnnotation => ascii "InvalidAnnotation"
  | .canaryOrphan => ascii "CanaryOrphan"
  | .canaryConflict => ascii "CanaryConflict"
  | .canaryInert => ascii "CanaryInert"
  | .mirrorRejected => ascii "MirrorRejected"
  | .tlsSecret => ascii "TlsSecret"
  | .tlsConflict => ascii "TlsConflict"
  | .tlsHostless => ascii "TlsHostless"
  | .defaultBackendConflict => ascii "DefaultBackendConflict"
  | .backendProtocolConflict => ascii "BackendProtocolConflict"

/-- Whether it names a value written in an annotation on its subject. -/
def WarningKind.isAnnotationRefusal : WarningKind → Bool
  | WarningKind.invalidAnnotation | .canaryOrphan | .canaryConflict | .canaryInert
  | .mirrorRejected | .backendProtocolConflict => true
  | _ => false

/-- What was refused, with the values its wording names. -/
inductive Detail where
  | noSuchClass (name : Bytes)
  | alreadyServed (key : RouteKey) (holder : ObjectKey)
  | defaultTaken (holder : ObjectKey)
  | notANumber ( annotation : Bytes)
  | neverDiverts
  | mirrorOnCanary
  | nothingServed (key : RouteKey)
  | canaryTaken (key : RouteKey) (holder : ObjectKey)
  | protocolTaken (target : ServiceRef) (held asked : BackendProtocol)
  | addressesSkipped (count : Nat)
  | unresolved (target : ServiceRef) (issue : ResolveIssue)
  | canaryRefused (err : BuildError) (key : RouteKey)
  | mirrorRefused (err : BuildError) (key : RouteKey)
  | routeRefused (key : RouteKey) (err : BuildError)
  | noTlsHosts
  | noSecretName
  | secretUnusable (ns name : Bytes) (issue : CertIssue)
  | certificateTaken (host : Bytes) (holder : ObjectKey)
  | tlsHostRefused (host : Bytes) (err : BuildError)
  | defaultSecretUnusable (issue : CertIssue)
  | defaultSecretShape
  | promotionUnread ( annotation : Bytes)
  | notAPercentage ( annotation : Bytes)
  | mirrorUnusable (reference : Bytes) (err : ServiceRefError)
  | protocolUnsupported (value : Bytes)
  | notAService
  | noPort (service : Bytes)
  | unknownPathType (raw : Bytes)
  deriving DecidableEq, Repr

def Detail.kind : Detail → WarningKind
  | .noSuchClass _ => .unknownClass
  | .alreadyServed _ _ => .routeConflict
  | .defaultTaken _ => .defaultBackendConflict
  | .notANumber _ | .mirrorOnCanary | .promotionUnread _ | .notAPercentage _
  | .protocolUnsupported _ | .unknownPathType _ => WarningKind.invalidAnnotation
  | .neverDiverts => .canaryInert
  | .nothingServed _ => .canaryOrphan
  | .canaryTaken _ _ => .canaryConflict
  | .protocolTaken _ _ _ => .backendProtocolConflict
  | .addressesSkipped _ => .endpointsSkipped
  | .unresolved _ (.externalName _) => .externalNameService
  | .unresolved _ _ => .serviceUnresolved
  | .canaryRefused _ _ | .routeRefused _ _ | .tlsHostRefused _ _ => .invalidRoute
  | .mirrorRefused _ _ | .mirrorUnusable _ _ => .mirrorRejected
  | .noTlsHosts => .tlsHostless
  | .noSecretName | .secretUnusable _ _ _ | .defaultSecretUnusable _
  | .defaultSecretShape => .tlsSecret
  | .certificateTaken _ _ => .tlsConflict
  | .notAService | .noPort _ => .unsupportedBackend

/-- One thing the translator refused, and the object to look at. -/
structure Warning where
  subject : ObjectKey
  detail : Detail
  deriving DecidableEq, Repr

def Warning.kind (w : Warning) : WarningKind := w.detail.kind

section Wording

-- The words of a refused expression come from the regular-expression library.
variable (regexError : Regex → Bytes)

def quoted (text : Bytes) : Bytes := ascii "`" ++ text ++ ascii "`"

def buildErrorText : BuildError → Bytes
  | .hostLength host =>
      ascii "host " ++ quoted host ++ ascii " is empty or longer than 253 bytes"
  | .hostSyntax host found =>
      ascii "host " ++ quoted host ++ ascii " contains " ++ quoted [found] ++
        ascii ", which is not valid in an Ingress host"
  | .wildcardShape host =>
      ascii "host " ++ quoted host ++
        ascii " is not a valid wildcard: exactly one leading `*.` label is supported"
  | .pathNotAbsolute path => ascii "path " ++ quoted path ++ ascii " must begin with `/`"
  | .badPattern path =>
      ascii "invalid ImplementationSpecific path " ++ quoted path ++ ascii ": " ++
        regexError (pathRegex path)
  | .badCanaryPattern pattern =>
      ascii "invalid canary header pattern " ++ quoted pattern ++ ascii ": " ++
        regexError (headerRegex pattern)
  | .duplicatePath host path pathType =>
      ascii "duplicate " ++ pathType.asStr ++ ascii " path " ++ quoted path ++
        ascii " on host " ++ quoted host
  | .duplicateBackend name =>
      ascii "backend " ++ quoted name ++ ascii " was registered more than once"
  | .unknownBackend name referrer =>
      quoted referrer ++ ascii " references backend " ++ quoted name ++
        ascii ", which was never registered"
  | .canaryHeaderConflict host path =>
      ascii "canary on " ++ quoted (host ++ path) ++
        ascii " sets both a header value and a header pattern"
  | .canaryWeight weight total =>
      ascii "canary weight " ++ decimal weight ++ ascii " exceeds total " ++ decimal total
  | .mirrorPercent percent => ascii "mirror percent " ++ decimal percent ++ ascii " is above 100"
  | .mirrorBackendMissing host path =>
      ascii "mirror on " ++ quoted (host ++ path) ++ ascii " names no backend"

def issueText (target : ServiceRef) : ResolveIssue → Bytes
  | .serviceMissing =>
      ascii "Service " ++ target.backendName ++ ascii " does not exist; serving 503"
  | .portMissing =>
      ascii "Service has no port " ++ quoted target.port.display ++ ascii "; serving 503"
  | .noReadyEndpoints skipped =>
      ascii "no ready endpoints (" ++ decimal skipped ++ ascii " skipped); serving 503"
  | .externalName name =>
      ascii "ExternalName Services are not supported yet (" ++ quoted name ++
        ascii "); serving 503"

/-- The words of a warning. -/
def Detail.text : Detail → Bytes
  | .noSuchClass name =>
      ascii "ingressClassName " ++ quoted name ++ ascii " does not name any IngressClass"
  | .alreadyServed key holder =>
      describe key ++ ascii " is already served by the older Ingress " ++ holder.display
  | .defaultTaken holder =>
      ascii "the default backend is already set by the older Ingress " ++ holder.display
  | .notANumber annotation => quoted annotation ++ ascii " is not a number and was ignored"
  | .neverDiverts =>
      ascii "canary has no weight, header, or cookie, so it can never divert a request"
  | .mirrorOnCanary =>
      quoted ANNOTATION_MIRROR_BACKEND ++ ascii (" on a canary Ingress does nothing; a mirror " ++
        "belongs to the route, so put it on the production Ingress")
  | .nothingServed key =>
      ascii "no production Ingress serves " ++ describe key ++
        ascii ", so this canary routes nothing"
  | .canaryTaken key holder =>
      describe key ++ ascii " already has a canary from the older Ingress " ++ holder.display
  | .protocolTaken target held asked =>
      ascii "backend " ++ target.backendName ++ ascii " is already registered as " ++
        quoted held.asStr ++ ascii " by another Ingress; this Ingress asked for " ++
        quoted asked.asStr ++ ascii " and was not honoured"
  | .addressesSkipped count =>
      decimal count ++ ascii " address(es) skipped as unready or terminating"
  | .unresolved target issue => issueText target issue
  | .canaryRefused err key =>
      ascii "canary rejected (" ++ buildErrorText regexError err ++ ascii "); serving " ++
        describe key ++ ascii " without it"
  | .mirrorRefused err key =>
      ascii "mirror rejected (" ++ buildErrorText regexError err ++ ascii "); serving " ++
        describe key ++ ascii " without it"
  | .routeRefused key err =>
      describe key ++ ascii " rejected: " ++ buildErrorText regexError err
  | .noTlsHosts =>
      ascii ("spec.tls entry lists no hosts; set ControllerOpts::default_tls_secret " ++
        "instead, since the controller does not parse certificate SANs")
  | .noSecretName => ascii "spec.tls entry has no secretName"
  | .secretUnusable ns name issue =>
      ns ++ ascii "/" ++ name ++ ascii ": " ++ issue.display ++
        ascii "; serving these hosts without it"
  | .certificateTaken host holder =>
      quoted host ++ ascii " already has a certificate from the older Ingress " ++ holder.display
  | .tlsHostRefused host err =>
      ascii "TLS host " ++ quoted host ++ ascii " rejected: " ++ buildErrorText regexError err
  | .defaultSecretUnusable issue => ascii "default TLS secret unusable: " ++ issue.display
  | .defaultSecretShape => ascii "default TLS secret must be `namespace/name`"
  | .promotionUnread annotation =>
      quoted annotation ++ ascii " could not be read; automatic promotion is using its default"
  | .notAPercentage annotation =>
      quoted annotation ++ ascii " is not a percentage in 0-100 and was ignored"
  | .mirrorUnusable reference err =>
      quoted (ANNOTATION_MIRROR_BACKEND ++ ascii ": " ++ reference) ++ ascii " is unusable (" ++
        err.display ++ ascii "); serving without a mirror"
  | .protocolUnsupported value =>
      quoted (ANNOTATION_BACKEND_PROTOCOL ++ ascii ": " ++ value) ++
        ascii (" is not supported; only `HTTP` and `GRPC` are, and this backend stays " ++
          "on HTTP/1.1")
  | .notAService =>
      ascii "`backend.resource` is not supported; only Service backends are routable"
  | .noPort service => ascii "backend Service " ++ quoted service ++ ascii " names no port"
  | .unknownPathType raw =>
      ascii "unknown pathType " ++ quoted raw ++ ascii ", treating it as ImplementationSpecific"

end Wording

end Ramjet.Controller.Warnings
