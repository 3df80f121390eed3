/- digest: The dashboard's scanner of the metrics page, which skips what it does not know. -/

import Ramjet.Base.Text

set_option autoImplicit false
set_option relaxedAutoImplicit false

namespace Ramjet.Top.Prom

open Ramjet.Base.Octets
open Ramjet.Base.Text

def U64_MAX : Nat := 18446744073709551615

/-- What the scanner asks of `f64`. -/
structure Floats (F : Type) where
  parse : Bytes → Option F
  isFinite : F → Bool
  positive : F → Bool
  negative : F → Bool
  /-- `as u64`. -/
  toU64 : F → Nat
  /-- `as i64`. -/
  toI64 : F → Int
  zero : F

structure MetricsSnapshot (F : Type) where
  requestsTotal : Nat := 0
  errors5xxTotal : Nat := 0
  activeConnections : Option Int := none
  generation : Option Nat := none
  latencySumSeconds : F
  latencyCount : Nat := 0
  pinned : Option Nat := none

structure Sample (F : Type) where
  name : Bytes
  labels : Bytes
  value : F

/-- A line without the carriage return before its end. -/
def stripReturn (line : Bytes) : Bytes := if line.getLast? = some 13 then line.dropLast else line

/-- `str::lines`. -/
def strLines (text : Bytes) : List Bytes :=
  let pieces := text.splitOn 10
  pieces.dropLast.map stripReturn ++ (pieces.getLast?.filter fun last => !last.isEmpty).toList

/-- A text up to its first whitespace. -/
def untilWhitespace : Bytes → Bytes
  | [] => []
  | b :: rest =>
      if whitespace.any fun w => w.isPrefixOf (b :: rest) then [] else b :: untilWhitespace rest

/-- The first of the pieces between whitespace. -/
def firstToken (text : Bytes) : Option Bytes :=
  let text := trimStartUpTo text.length text
  if text.isEmpty then none else some (untilWhitespace text)

def trimMatches (b : UInt8) (text : Bytes) : Bytes :=
  (text.dropWhile (· == b)).rdropWhile (· == b)

/-- The value of a label, quoted or not. -/
def label (labels key : Bytes) : Option Bytes :=
  (labels.splitOn 44).findSome? fun pair => do
    let (name, value) ← splitOnce 61 pair
    if trim name = key then some (trimMatches 34 (trim value)) else none

section Scanning

variable {F : Type} (floats : Floats F)

/-- A line as a sample, absent where it is none. -/
def splitSample (line : Bytes) : Option (Sample F) :=
  let line := trim line
  if line.isEmpty || line.head? == some 35 then none
  else do
    let (name, labels, rest) ←
      match splitOnce 123 line with
      | some (name, after) => (splitOnce 125 after).map fun (labels, rest) => (name, labels, rest)
      | none => (splitOnce 32 line).map fun (name, rest) => (name, [], rest)
    let value ← floats.parse (← firstToken rest)
    some { name := trim name, labels := labels, value := value }

/-- A counter as the dashboard takes it: nothing but a positive number. -/
def asCounter (value : F) : Nat :=
  if floats.isFinite value && floats.positive value then floats.toU64 value else 0

def saturatingAdd (a b : Nat) : Nat := min (a + b) U64_MAX

/-- What one sample changes. -/
def take (snapshot : MetricsSnapshot F) (sample : Sample F) : MetricsSnapshot F :=
  if sample.name = ascii "ramjet_requests_total" then
    let count := asCounter floats sample.value
    { snapshot with
      requestsTotal := saturatingAdd snapshot.requestsTotal count
      errors5xxTotal :=
        if (label sample.labels (ascii "code")).getD [] = ascii "5xx" then
          saturatingAdd snapshot.errors5xxTotal count
        else snapshot.errors5xxTotal }
  else if sample.name = ascii "ramjet_active_connections" then
    if floats.isFinite sample.value then
      { snapshot with activeConnections := some (floats.toI64 sample.value) }
    else snapshot
  else if sample.name = ascii "ramjet_route_table_generation" then
    { snapshot with generation := some (asCounter floats sample.value) }
  else if sample.name = ascii "ramjet_upstream_latency_seconds_sum" then
    if floats.isFinite sample.value && !floats.negative sample.value then
      { snapshot with latencySumSeconds := sample.value }
    else snapshot
  else if sample.name = ascii "ramjet_upstream_latency_seconds_count" then
    { snapshot with latencyCount := asCounter floats sample.value }
  else if sample.name = ascii "ramjet_pinned" then
    -- Whatever the gauge says is taken for the generation that is held.
    let generation := asCounter floats sample.value
    { snapshot with pinned := if 0 < generation then some generation else none }
  else snapshot

def scan (snapshot : MetricsSnapshot F) (line : Bytes) : MetricsSnapshot F :=
  match splitSample floats line with
  | some sample => take floats snapshot sample
  | none => snapshot

def parse (text : Bytes) : MetricsSnapshot F :=
  (strLines text).foldl (scan floats) { latencySumSeconds := floats.zero }

end Scanning

end Ramjet.Top.Prom
