/- digest: The cluster objects the translator reads, with the fields it reads of them. -/

import Ramjet.Base.AssocMap
import Ramjet.Base.Octets

set_option autoImplicit false
set_option relaxedAutoImplicit false

namespace Ramjet.Controller.Objects

open Ramjet.Base.Octets
open Ramjet.Base.AssocMap

abbrev Annotations := Map Bytes Bytes

structure ObjectMeta where
  name : Option Bytes := none
  generateName : Option Bytes := none
  namespace_ : Option Bytes := none
  uid : Option Bytes := none
  creationTimestamp : Option Int := none
  annotations : Annotations := []
  labels : Map Bytes Bytes := []
  deriving DecidableEq, Repr

/-- The object's name, or the prefix its name was to be generated from. -/
def ObjectMeta.nameAny (m : ObjectMeta) : Bytes := (m.name.or m.generateName).getD []

structure ServiceBackendPort where
  number : Option Int := none
  name : Option Bytes := none
  deriving DecidableEq, Repr

structure IngressServiceBackend where
  name : Bytes
  port : Option ServiceBackendPort := none
  deriving DecidableEq, Repr

/-- A backend; one without a Service names a resource of another kind. -/
structure IngressBackend where
  service : Option IngressServiceBackend := none
  deriving DecidableEq, Repr

structure HTTPIngressPath where
  path : Option Bytes := none
  pathType : Bytes
  backend : IngressBackend
  deriving DecidableEq, Repr

structure IngressRule where
  host : Option Bytes := none
  http : Option (List HTTPIngressPath) := none
  deriving DecidableEq, Repr

structure IngressTLS where
  hosts : Option (List Bytes) := none
  secretName : Option Bytes := none
  deriving DecidableEq, Repr

structure IngressSpec where
  ingressClassName : Option Bytes := none
  rules : Option (List IngressRule) := none
  defaultBackend : Option IngressBackend := none
  tls : Option (List IngressTLS) := none
  deriving DecidableEq, Repr

structure Ingress where
  metadata : ObjectMeta
  spec : Option IngressSpec := none
  deriving DecidableEq, Repr

structure IngressClass where
  metadata : ObjectMeta
  controller : Option Bytes := none
  deriving DecidableEq, Repr

structure ServicePort where
  name : Option Bytes := none
  port : Int
  deriving DecidableEq, Repr

structure ServiceSpec where
  type_ : Option Bytes := none
  externalName : Option Bytes := none
  ports : Option (List ServicePort) := none
  deriving DecidableEq, Repr

structure Service where
  metadata : ObjectMeta
  spec : Option ServiceSpec := none
  deriving DecidableEq, Repr

structure EndpointConditions where
  ready : Option Bool := none
  terminating : Option Bool := none
  deriving DecidableEq, Repr

/-- One endpoint of a slice: its addresses and its conditions. -/
structure SliceEndpoint where
  addresses : List Bytes
  conditions : Option EndpointConditions := none
  deriving DecidableEq, Repr

structure EndpointPort where
  name : Option Bytes := none
  port : Option Int := none
  deriving DecidableEq, Repr

structure EndpointSlice where
  metadata : ObjectMeta
  addressType : Bytes
  ports : Option (List EndpointPort) := none
  endpoints : Option (List SliceEndpoint) := none
  deriving DecidableEq, Repr

structure Secret where
  metadata : ObjectMeta
  type_ : Option Bytes := none
  data : Option (Map Bytes Bytes) := none
  deriving DecidableEq, Repr

/-- Everything the translator is allowed to look at. -/
structure ClusterSnapshot where
  ingresses : List Ingress := []
  ingressClasses : List IngressClass := []
  services : List Service := []
  endpointSlices : List EndpointSlice := []
  secrets : List Secret := []
  deriving DecidableEq, Repr

/-- Namespace and name of an object. -/
structure ObjectKey where
  namespace_ : Bytes
  name : Bytes
  deriving DecidableEq, Repr

def ObjectKey.of (m : ObjectMeta) : ObjectKey := ⟨m.namespace_.getD [], m.name.getD []⟩

def ObjectKey.display (k : ObjectKey) : Bytes :=
  if k.namespace_.isEmpty then k.name else k.namespace_ ++ ascii "/" ++ k.name

end Ramjet.Controller.Objects
