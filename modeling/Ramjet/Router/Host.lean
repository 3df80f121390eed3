/- digest: One pass over a Host header, and the parent domain a wildcard is filed under. -/

import Ramjet.Base.Octets

set_option autoImplicit false
set_option relaxedAutoImplicit false

namespace Ramjet.Router.Host

open Ramjet.Base.Octets

def MAX_HOST_LEN : Nat := 253

/-- What one pass over a `Host` header found. -/
inductive Scan where
  | clean (name : Bytes)
  | fold (name : Bytes)
  | invalid
  deriving DecidableEq, Repr

def isAsciiUppercase (b : UInt8) : Bool := 65 ≤ b && b ≤ 90

/-- Where the name ends and whether it holds upper case, before the root dot is dropped. -/
def scanEnd (host : Bytes) : Option (Nat × Bool) :=
  if host.head? = some 91 then
    match host.findIdx? (· == 93) with
    | some close => some (close + 1, (host.take (close + 1)).any isAsciiUppercase)
    | none => none
  else
    let name := host.takeWhile (· != 58)
    some (name.length, name.any isAsciiUppercase)

/-- Trims the port and a trailing root dot, and reports whether case folding is still due. -/
def scan (host : Bytes) : Scan :=
  match scanEnd host with
  | none => .invalid
  | some (stop, upper) =>
      let stop := if 1 < stop ∧ host[stop - 1]? = some 46 then stop - 1 else stop
      if stop = 0 ∨ MAX_HOST_LEN < stop then .invalid
      else if upper then .fold (host.take stop)
      else .clean (host.take stop)

/-- The lower-case form, as far as the fixed buffer holds it. -/
def foldLower (host : Bytes) : Option Bytes :=
  if host.length ≤ MAX_HOST_LEN then some (host.map toAsciiLowercase) else none

/-- The name behind the first label, when neither is empty. -/
def parentDomain (host : Bytes) : Option Bytes :=
  match splitOnce (46 : UInt8) host with
  | none => none
  | some (label, parent) => if label.isEmpty || parent.isEmpty then none else some parent

end Ramjet.Router.Host
