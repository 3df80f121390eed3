/- digest: The certificate store, and the resolver that joins it to the routing table. -/

import Ramjet.Router.Table

set_option autoImplicit false
set_option relaxedAutoImplicit false

namespace Ramjet.Proxy.Tls

open Ramjet.Base.Octets
open Ramjet.Base.AssocMap
open Ramjet.Router.Table

variable {Key : Type}

/-- Certificates and private keys by handle id. -/
abbrev CertKeys (Key : Type) := Map Nat Key

/-- The store every handshake reads; it is replaced as a whole. -/
structure CertStore (Key : Type) where
  inner : CertKeys Key := []
  deriving DecidableEq, Repr

def CertStore.publish (_ : CertStore Key) (certs : CertKeys Key) : CertStore Key := ⟨certs⟩

def CertStore.get (store : CertStore Key) (id : Nat) : Option Key :=
  Base.AssocMap.get store.inner id

/-- A server name resolved against one table and one store. -/
def resolveName (table : RouteTable) (store : CertStore Key) (serverName : Bytes) : Option Key :=
  (table.tls.resolve serverName).bind store.get

@[simp] theorem get_publish (store : CertStore Key) (certs : CertKeys Key) (id : Nat) :
    (store.publish certs).get id = get certs id := rfl

end Ramjet.Proxy.Tls
