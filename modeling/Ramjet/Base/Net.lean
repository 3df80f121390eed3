/- digest: Internet addresses and their printed forms. -/

import Ramjet.Base.Octets

set_option autoImplicit false
set_option relaxedAutoImplicit false

namespace Ramjet.Base.Net

open Ramjet.Base.Octets

/-- An IP address: four octets, or eight sixteen-bit groups. -/
inductive IpAddr where
  | v4 (octets : Vector UInt8 4)
  | v6 (segments : Vector UInt16 8)
  deriving DecidableEq

def displayV4 (octets : List UInt8) : Bytes :=
  joinBytes (ascii ".") (octets.map fun o => decimal o.toNat)

def displaySegments (segments : List UInt16) : Bytes :=
  joinBytes (ascii ":") (segments.map fun s => hexadecimal s.toNat)

/-- Length of the run of zero groups at the front. -/
def zeroRun (segments : List UInt16) : Nat := (segments.takeWhile (· == 0)).length

/-- Start and length of the first longest run of zero groups. -/
def longestZeroRun : List UInt16 → Nat → Nat × Nat
  | [], _ => (0, 0)
  | s :: rest, at_ =>
      let later := longestZeroRun rest (at_ + 1)
      let here := zeroRun (s :: rest)
      if here ≠ 0 ∧ later.2 ≤ here then (at_, here) else later

def displayV6 (segments : List UInt16) : Bytes :=
  if segments.take 6 = [0, 0, 0, 0, 0, 0xffff] then
    ascii "::ffff:" ++
      displayV4 ((segments.drop 6).flatMap fun s => [UInt8.ofNat (s.toNat / 256), s.toUInt8])
  else
    match longestZeroRun segments 0 with
    | (start, run) =>
        if 1 < run then
          displaySegments (segments.take start) ++ ascii "::" ++
            displaySegments (segments.drop (start + run))
        else displaySegments segments

/-- The bare form of an address, without brackets. -/
def IpAddr.display : IpAddr → Bytes
  | .v4 octets => displayV4 octets.toList
  | .v6 segments => displayV6 segments.toList

/-- An address and a port; a version-six one also carries a scope. -/
structure SocketAddr where
  ip : IpAddr
  port : UInt16
  scopeId : UInt32
  deriving DecidableEq

def SocketAddr.display (a : SocketAddr) : Bytes :=
  match a.ip with
  | .v4 _ => a.ip.display ++ ascii ":" ++ decimal a.port.toNat
  | .v6 _ =>
      ascii "[" ++ a.ip.display ++
        (if a.scopeId = 0 then [] else ascii "%" ++ decimal a.scopeId.toNat) ++
        ascii "]:" ++ decimal a.port.toNat

section Printed

/-- The octets an address is printed with. -/
def isAddressOctet (b : UInt8) : Bool := isAsciiAlphanumeric b || b == 46 || b == 58

private theorem joinBytes_octets {sep : Bytes} (hsep : ∀ b ∈ sep, isAddressOctet b = true)
    {pieces : List Bytes} (h : ∀ p ∈ pieces, ∀ b ∈ p, isAddressOctet b = true) :
    ∀ b ∈ joinBytes sep pieces, isAddressOctet b = true := by
  induction pieces with
  | nil => exact fun b hb => by cases hb
  | cons p ps ih =>
      have hrest := ih fun q hq => h q (List.mem_cons_of_mem p hq)
      have hhere := h p List.mem_cons_self
      intro b hb
      cases ps with
      | nil => exact hhere b hb
      | cons q qs =>
          rw [joinBytes, List.mem_append, List.mem_append] at hb
          rcases hb with hb | hb | hb
          · exact hhere b hb
          · exact hsep b hb
          · exact hrest b hb

private theorem numeral_octets {base n : Nat} (h1 : 2 ≤ base) (h2 : base ≤ 16) :
    ∀ b ∈ numeral base n, isAddressOctet b = true := by
  intro b hb
  simp [isAddressOctet, isAsciiAlphanumeric_of_mem_numeral h1 h2 hb]

private theorem literal_octets {s : String} (h : (ascii s).all isAddressOctet = true) :
    ∀ b ∈ ascii s, isAddressOctet b = true := List.all_eq_true.mp h

private theorem displayV4_octets (octets : List UInt8) :
    ∀ b ∈ displayV4 octets, isAddressOctet b = true := by
  refine joinBytes_octets (literal_octets (by decide)) fun p hp => ?_
  obtain ⟨o, -, rfl⟩ := List.mem_map.mp hp
  exact numeral_octets (by omega) (by omega)

private theorem displaySegments_octets (segments : List UInt16) :
    ∀ b ∈ displaySegments segments, isAddressOctet b = true := by
  refine joinBytes_octets (literal_octets (by decide)) fun p hp => ?_
  obtain ⟨s, -, rfl⟩ := List.mem_map.mp hp
  exact numeral_octets (by omega) (by omega)

theorem IpAddr.display_octets (ip : IpAddr) : ∀ b ∈ ip.display, isAddressOctet b = true := by
  intro b hb
  cases ip with
  | v4 octets => exact displayV4_octets _ b hb
  | v6 segments =>
      simp only [IpAddr.display, displayV6] at hb
      split at hb
      · rcases List.mem_append.mp hb with hb | hb
        · exact literal_octets (by decide) b hb
        · exact displayV4_octets _ b hb
      · split at hb
        · rw [List.mem_append, List.mem_append] at hb
          rcases hb with (hb | hb) | hb
          · exact displaySegments_octets _ b hb
          · exact literal_octets (by decide) b hb
          · exact displaySegments_octets _ b hb
        · exact displaySegments_octets _ b hb

private theorem joinBytes_ne_nil {sep : Bytes} {piece : Bytes} (h : piece ≠ [])
    (pieces : List Bytes) : joinBytes sep (piece :: pieces) ≠ [] := by
  cases pieces with
  | nil => exact h
  | cons q qs => exact List.append_ne_nil_of_left_ne_nil h _

private theorem numeral_ne_nil (base n : Nat) : numeral base n ≠ [] := by
  rw [numeral]
  split
  · exact List.cons_ne_nil _ _
  · exact List.append_ne_nil_of_right_ne_nil _ (List.cons_ne_nil _ _)

theorem IpAddr.display_ne_nil (ip : IpAddr) : ip.display ≠ [] := by
  cases ip with
  | v4 octets =>
      obtain ⟨⟨l⟩, hl⟩ := octets
      cases l with
      | nil => cases hl
      | cons o os => exact joinBytes_ne_nil (numeral_ne_nil _ _) _
  | v6 segments =>
      simp only [IpAddr.display, displayV6]
      split
      · exact List.append_ne_nil_of_left_ne_nil (by decide) _
      · split
        · refine List.append_ne_nil_of_left_ne_nil ?_ _
          exact List.append_ne_nil_of_right_ne_nil _ (by decide)
        · obtain ⟨⟨l⟩, hl⟩ := segments
          cases l with
          | nil => cases hl
          | cons o os => exact joinBytes_ne_nil (numeral_ne_nil _ _) _

end Printed

section Parsing

def digitOf (radix : Nat) (b : UInt8) : Option Nat :=
  let value :=
    if 48 ≤ b && b ≤ 57 then b.toNat - 48
    else if 97 ≤ b && b ≤ 122 then b.toNat - 87
    else if 65 ≤ b && b ≤ 90 then b.toNat - 55
    else radix
  if value < radix then some value else none

/-- A number of one to `maxDigits` digits at the front of a text. -/
def readNumber (radix maxDigits : Nat) (zeroes : Bool) (text : Bytes) : Option (Nat × Bytes) :=
  let digits := text.takeWhile fun b => (digitOf radix b).isSome
  let value := digits.foldl (fun n b => n * radix + (digitOf radix b).getD 0) 0
  if digits.isEmpty || maxDigits < digits.length then none
  else if !zeroes && 1 < digits.length && digits.head? == some 48 then none
  else some (value, text.drop digits.length)

def readChar (c : UInt8) (text : Bytes) : Option Bytes :=
  if text.head? = some c then some text.tail else none

def readOctet (text : Bytes) : Option (UInt8 × Bytes) :=
  match readNumber 10 3 false text with
  | some (n, rest) => if n < 256 then some (UInt8.ofNat n, rest) else none
  | none => none

/-- Four octets between dots. -/
def readIpv4 (text : Bytes) : Option (Vector UInt8 4 × Bytes) := do
  let (a, text) ← readOctet text
  let (b, text) ← (readChar 46 text).bind readOctet
  let (c, text) ← (readChar 46 text).bind readOctet
  let (d, text) ← (readChar 46 text).bind readOctet
  return (#v[a, b, c, d], text)

/-- An element behind its separator; the first element has none. -/
def readSeparated {α : Type} (first : Bool) (read : Bytes → Option (α × Bytes)) (text : Bytes) :
    Option (α × Bytes) :=
  if first then read text else (readChar 58 text).bind read

def pairOf (high low : UInt8) : UInt16 := UInt16.ofNat (high.toNat * 256 + low.toNat)

/-- Up to `limit` groups, the last two of which may be spelled as an embedded IPv4 address. -/
def readGroups : Nat → Bool → Bytes → List UInt16 × Bool × Bytes
  | 0, _, text => ([], false, text)
  | limit + 1, first, text =>
      let embedded := if 0 < limit then readSeparated first readIpv4 text else none
      match embedded with
      | some (v4, rest) => ([pairOf v4[0] v4[1], pairOf v4[2] v4[3]], true, rest)
      | none =>
          match readSeparated first (readNumber 16 4 true) text with
          | some (group, rest) =>
              let (groups, v4, rest) := readGroups limit false rest
              (UInt16.ofNat group :: groups, v4, rest)
          | none => ([], false, text)

/-- Eight groups, or fewer around one `::`. -/
def readIpv6 (text : Bytes) : Option (Vector UInt16 8 × Bytes) := do
  let (head, v4, text) := readGroups 8 true text
  if head.length = 8 then return (Vector.ofFn fun i => head.getD i 0, text)
  if v4 then none
  let text ← (readChar 58 text).bind (readChar 58)
  let (tail, _, text) := readGroups (8 - (head.length + 1)) true text
  let groups := head ++ List.replicate (8 - head.length - tail.length) 0 ++ tail
  return (Vector.ofFn fun i => groups.getD i 0, text)

/-- An address in either version, and nothing behind it. -/
def parseIpAddr (text : Bytes) : Option IpAddr :=
  match readIpv4 text with
  | some (octets, []) => if text.length ≤ 15 then some (.v4 octets) else none
  | _ =>
      match readIpv6 text with
      | some (segments, []) => some (.v6 segments)
      | _ => none

/-- An address in version four, and nothing behind it. -/
def parseIpv4 (text : Bytes) : Option (Vector UInt8 4) :=
  match readIpv4 text with
  | some (octets, []) => if text.length ≤ 15 then some octets else none
  | _ => none

/-- An address in version six, and nothing behind it. -/
def parseIpv6 (text : Bytes) : Option (Vector UInt16 8) :=
  match readIpv6 text with
  | some (segments, []) => some segments
  | _ => none

example : parseIpAddr (ascii "10.0.0.7") = some (.v4 #v[10, 0, 0, 7]) := by decide +kernel

example : parseIpAddr (ascii "::ffff:1.2.3.4") =
    some (.v6 #v[0, 0, 0, 0, 0, 0xffff, 0x102, 0x304]) := by decide +kernel

end Parsing

section Ordering

/-- Where an address stands in the order of socket addresses. -/
def SocketAddr.sortKey (a : SocketAddr) : List Nat :=
  match a.ip with
  | .v4 octets => 4 :: octets.toList.map UInt8.toNat ++ [a.port.toNat]
  | .v6 segments => 6 :: segments.toList.map UInt16.toNat ++ [a.port.toNat, a.scopeId.toNat]

end Ordering

end Ramjet.Base.Net
