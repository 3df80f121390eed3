/- digest: Service references, the controller's options, and the compiled artifact. -/

import Ramjet.Controller.Annotations
import Ramjet.Router.Table

set_option autoImplicit false
set_option relaxedAutoImplicit false

namespace Ramjet.Controller.Config

open Ramjet.Base.Octets
open Ramjet.Base.Text
open Ramjet.Router.Balancing
open Ramjet.Router.Rule
open Ramjet.Router.Table
open Ramjet.Controller.Objects
open Ramjet.Controller.Annotations

def CONTROLLER_NAME : Bytes := ascii "ramjet.dev/ingress"

/-- A Service port as an Ingress backend named it. -/
inductive BackendPort where
  | number (n : Int)
  | name (n : Bytes)
  deriving DecidableEq, Repr

def BackendPort.display : BackendPort → Bytes
  | .number n => signedDecimal n
  | .name n => n

/-- A namespaced Service and one of its ports. -/
structure ServiceRef where
  namespace_ : Bytes
  name : Bytes
  port : BackendPort
  deriving DecidableEq, Repr

/-- The backend name registered with the router. -/
def ServiceRef.backendName (r : ServiceRef) : Bytes :=
  r.namespace_ ++ ascii "/" ++ r.name ++ ascii ":" ++ r.port.display

/-- Where a reference stands in the derived order: namespace, name, then numbers before names. -/
def ServiceRef.sortKey (r : ServiceRef) : List Nat ×ₗ List Nat ×ₗ Nat ×ₗ Int ×ₗ List Nat :=
  let port : Nat ×ₗ Int ×ₗ List Nat :=
    match r.port with
    | .number n => toLex (0, toLex (n, []))
    | .name n => toLex (1, toLex (0, textKey n))
  toLex (textKey r.namespace_, toLex (textKey r.name, port))

theorem ServiceRef.sortKey_injective : Function.Injective ServiceRef.sortKey := by
  rintro ⟨ns, name, port⟩ ⟨ns', name', port'⟩ h
  simp only [ServiceRef.sortKey, EmbeddingLike.apply_eq_iff_eq, Prod.mk.injEq] at h
  obtain ⟨hns, hname, hport⟩ := h
  obtain rfl := textKey_injective hns
  obtain rfl := textKey_injective hname
  cases port <;> cases port' <;> simp_all [textKey_injective.eq_iff]

/-- Why a `namespace/service:port` string could not be parsed. -/
inductive ServiceRefError where
  | shape (input : Bytes)
  | port (input field : Bytes)
  deriving DecidableEq, Repr

def ServiceRefError.display : ServiceRefError → Bytes
  | .shape input => ascii "`" ++ input ++ ascii "` is not of the form `namespace/name:port`"
  | .port input field =>
      ascii "`" ++ field ++ ascii "` in `" ++ input ++ ascii "` is not a valid port number or name"

/-- A port field: a number where it starts with a digit, else a name. -/
def parsePort (input port : Bytes) : Except ServiceRefError BackendPort :=
  if port.head?.any isAsciiDigit then
    match parseI32 port with
    | some n => .ok (.number n)
    | none => .error (.port input port)
  else .ok (.name port)

/-- Parses `namespace/name:port`. -/
def ServiceRef.fromStr (s : Bytes) : Except ServiceRefError ServiceRef :=
  match splitOnce (47 : UInt8) s with
  | none => .error (.shape s)
  | some (ns, rest) =>
      match rsplitOnce 58 rest with
      | none => .error (.shape s)
      | some (name, port) =>
          if ns.isEmpty || name.isEmpty || port.isEmpty then .error (.shape s)
          else (parsePort s port).map fun p => ⟨ns, name, p⟩

/-- One certificate and its private key, as they sat in the Secret. -/
structure CertMaterial where
  handleId : Nat
  certChainPem : Bytes
  keyPem : Bytes
  deriving DecidableEq, Repr

/-- One production route a canary shadows, as the data plane will have compiled it. -/
structure PromotionRoute where
  host : Bytes
  path : Bytes
  pathType : PathType
  deriving DecidableEq, Repr

/-- A canary Ingress that opted into automatic promotion. -/
structure PromotionTarget (F : Type) where
  ingress : ObjectKey
  uid : Option Bytes
  routes : List PromotionRoute
  weight : Nat
  policy : PromotionAnnotations F

/-- Everything the data plane needs to serve one generation of configuration. -/
structure CompiledConfig (F : Type) where
  table : RouteTable
  certs : List CertMaterial
  promotions : List (PromotionTarget F)
  digest : Nat

/-- The options the translator reads. -/
structure ControllerOpts where
  className : Bytes := ascii "ramjet"
  defaultBackend : Option ServiceRef := none
  defaultTlsSecret : Option Bytes := none
  lbPolicy : LbPolicy := .roundRobin
  deriving DecidableEq, Repr

end Ramjet.Controller.Config
