/- digest: The content digest, and certificate material read from TLS Secrets. -/

import Mathlib.Algebra.Ring.Nat
import Ramjet.Controller.Config

set_option autoImplicit false
set_option relaxedAutoImplicit false

namespace Ramjet.Controller.Secrets

open Ramjet.Base.Octets
open Ramjet.Base.AssocMap
open Ramjet.Controller.Objects
open Ramjet.Controller.Config

section Digest

/-- The bytes fed so far; the hash is taken over them at the end. -/
structure Digest where
  stream : Bytes := []
  deriving DecidableEq, Repr

def FNV_OFFSET : Nat := 14695981039346656037
def FNV_PRIME : Nat := 1099511628211
def U64_SIZE : Nat := 18446744073709551616

/-- FNV-1a, 64-bit. -/
def Digest.finish (d : Digest) : Nat :=
  d.stream.foldl (fun h b => ((h ^^^ b.toNat) * FNV_PRIME) % U64_SIZE) FNV_OFFSET

def Digest.bytes (d : Digest) (bytes : Bytes) : Digest := ⟨d.stream ++ bytes⟩

/-- The eight octets of an integer, least significant first. -/
def littleEndian (v : Nat) : Bytes :=
  (List.range 8).map fun i => UInt8.ofNat (v / 256 ^ i % 256)

def Digest.u64 (d : Digest) (v : Nat) : Digest := d.bytes (littleEndian v)

def Digest.u8 (d : Digest) (v : Nat) : Digest := d.bytes [UInt8.ofNat v]

/-- A string behind its length. -/
def Digest.str (d : Digest) (s : Bytes) : Digest := (d.u64 s.length).bytes s

def Digest.optStr (d : Digest) : Option Bytes → Digest
  | some s => (d.u8 1).str s
  | none => d.u8 0

def certHandleId (ns name cert key : Bytes) : Nat :=
  let d : Digest := {}
  let d := (d.str ns).str name
  let d := (d.u64 cert.length).bytes cert
  let d := (d.u64 key.length).bytes key
  d.finish

example : Digest.finish ⟨ascii "foobar"⟩ = 9625390261332436968 := by decide +kernel

end Digest

section Material

def TLS_SECRET_TYPE : Bytes := ascii "kubernetes.io/tls"
def TLS_CRT : Bytes := ascii "tls.crt"
def TLS_KEY : Bytes := ascii "tls.key"
def PEM_MARKER : Bytes := ascii "-----BEGIN"

/-- Why a Secret could not supply a certificate. -/
inductive CertIssue where
  | missing
  | wrongType (found : Bytes)
  | incompleteData (field : Bytes)
  | notPem
  deriving DecidableEq, Repr

def CertIssue.display : CertIssue → Bytes
  | .missing => ascii "secret does not exist"
  | .wrongType found =>
      ascii "secret type is `" ++ found ++ ascii "`, not `" ++ TLS_SECRET_TYPE ++ ascii "`"
  | .incompleteData field => ascii "secret has no usable `" ++ field ++ ascii "`"
  | .notPem => ascii "`tls.crt` is not PEM"

abbrev SecretIndex := Map (Bytes × Bytes) Secret

/-- Secrets by namespace and name; of two under one key the later stays. -/
def SecretIndex.new (secrets : List Secret) : SecretIndex :=
  secrets.foldl (fun index secret =>
    match secret.metadata.namespace_, secret.metadata.name with
    | some ns, some name => insert index (ns, name) secret
    | _, _ => index) []

/-- A field of a Secret's data that is present and not empty. -/
def secretField (secret : Secret) (key : Bytes) : Except CertIssue Bytes :=
  match secret.data.bind fun d => get d key with
  | some [] => .error (.incompleteData key)
  | some bytes => .ok bytes
  | none => .error (.incompleteData key)

def contains (haystack needle : Bytes) : Bool := (findSub needle haystack).isSome

/-- Reads one Secret into certificate material. -/
def SecretIndex.material (index : SecretIndex) (ns name : Bytes) :
    Except CertIssue CertMaterial :=
  match get index (ns, name) with
  | none => .error .missing
  | some secret =>
      if secret.type_ = some TLS_SECRET_TYPE then do
        let chain ← secretField secret TLS_CRT
        let key ← secretField secret TLS_KEY
        if contains chain PEM_MARKER then .ok ⟨certHandleId ns name chain key, chain, key⟩
        else .error .notPem
      else .error (.wrongType (secret.type_.getD (ascii "<none>")))

end Material

end Ramjet.Controller.Secrets
