/- digest: The request body the proxy moves: borrowed streams, what is read ahead, and its size. -/

import Ramjet.Base.Text
import Ramjet.Proxy.HeaderMap

set_option autoImplicit false
set_option relaxedAutoImplicit false

namespace Ramjet.Proxy.Body

open Ramjet.Base.Octets
open Ramjet.Base.Text
open Ramjet.Proxy.HeaderMap (isVisible)

section Sizes

abbrev U64 := Fin 18446744073709551616

def U64_MAX : Nat := 18446744073709551615

def U64.saturatingAdd (a b : U64) : U64 := ⟨min (a.val + b.val) U64_MAX, by unfold U64_MAX; omega⟩

def U64.saturatingSub (a b : U64) : U64 := ⟨a.val - b.val, by omega⟩

/-- The length of a chunk, in 64 bits. -/
def lengthU64 (chunk : Bytes) : U64 := Fin.ofNat 18446744073709551616 chunk.length

/-- Bounds on the data a body has still to yield. -/
structure SizeHint where
  lower : U64 := 0
  upper : Option U64 := none
  deriving DecidableEq, Repr

def SizeHint.withExact (value : U64) : SizeHint := ⟨value, some value⟩

def SizeHint.exact (hint : SizeHint) : Option U64 :=
  if hint.upper = some hint.lower then hint.upper else none

/-- The bounds of a stream with so much held in front of it. -/
def SizeHint.behind (rest : SizeHint) (held : U64) : SizeHint :=
  ⟨rest.lower.saturatingAdd held, rest.upper.map fun upper => upper.saturatingAdd held⟩

end Sizes

section Streams

abbrev Trailers := List (Bytes × Bytes)

inductive Frame where
  | data (chunk : Bytes)
  | trailers (fields : Trailers)
  deriving DecidableEq, Repr

/-- Why a body stopped before it was complete; a library's own errors are told apart by number. -/
inductive BodyError where
  | http (error : Nat)
  | http3 (error : Nat)
  deriving DecidableEq, Repr

/-- What one poll gives once it is ready. -/
abbrev Polled := Option (Except BodyError Frame)

/-- A body hyper reads off a connection: its data, then trailers, then a failure. Its size hints
are hyper's own, one before each poll to come. -/
structure Incoming where
  data : List Bytes
  trailers : Option Trailers := none
  failure : Option Nat := none
  hint : Nat → SizeHint

def Incoming.sizeHint (body : Incoming) : SizeHint := body.hint 0

def Incoming.pollFrame (body : Incoming) : Polled × Incoming :=
  let polled := { body with hint := fun n => body.hint (n + 1) }
  match body.data with
  | chunk :: data => (some (.ok (.data chunk)), { polled with data := data })
  | [] =>
      match body.trailers with
      | some fields => (some (.ok (.trailers fields)), { polled with trailers := none })
      | none =>
          match body.failure with
          | some error => (some (.error (.http error)), { polled with failure := none })
          | none => (none, polled)

/-- What a QUIC stream gives, poll after poll, before it gives nothing more. -/
abbrev RecvStream := List (Except Nat Bytes)

/-- A request body arriving as HTTP/3 DATA frames. -/
structure RequestBody where
  stream : RecvStream
  queued : Option (Except Nat Bytes) := none
  remaining : Option U64
  ended : Bool := false
  deriving DecidableEq

/-- Whether the stream has already ended; what the poll produced instead is kept. -/
def RequestBody.alreadyEnded (body : RequestBody) (ready : Bool) : Bool × RequestBody :=
  if ready then
    match body.stream with
    | [] => (true, { body with ended := true })
    | chunk :: stream => (false, { body with stream := stream, queued := some chunk })
  else (false, body)

def RequestBody.isKnownEmpty (body : RequestBody) : Bool :=
  body.queued.isNone && (body.ended || body.remaining = some 0)

def RequestBody.isEndStream (body : RequestBody) : Bool := body.ended && body.queued.isNone

def RequestBody.sizeHint (body : RequestBody) : SizeHint :=
  match body.remaining with
  | some remaining => .withExact remaining
  | none => if body.isEndStream then .withExact 0 else {}

/-- Hands one chunk on, the declared length in step with it; a failure ends the body. -/
def RequestBody.deliver (body : RequestBody) (chunk : Except Nat Bytes) :
    Except BodyError Frame × RequestBody :=
  match chunk with
  | .ok data =>
      (.ok (.data data),
        { body with remaining := body.remaining.map fun n => n.saturatingSub (lengthU64 data) })
  | .error error => (.error (.http3 error), { body with ended := true })

def RequestBody.pollFrame (body : RequestBody) : Polled × RequestBody :=
  match body.queued with
  | some queued =>
      let (frame, body) := { body with queued := none }.deliver queued
      (some frame, body)
  | none =>
      if body.ended then (none, body)
      else
        match body.stream with
        | [] => (none, { body with ended := true })
        | chunk :: stream =>
            let (frame, body) := { body with stream := stream }.deliver chunk
            (some frame, body)

end Streams

section Bodies

inductive Inner where
  | empty
  | once (data : Option Bytes)
  | stream (body : Incoming)
  | prefixed (data : Option Bytes) (body : Incoming)
  | http3 (data : Option Bytes) (body : RequestBody)

/-- A request or response body moving through the proxy. -/
structure ProxyBody where
  inner : Inner

def ProxyBody.empty : ProxyBody := ⟨.empty⟩

def ProxyBody.once (data : Bytes) : ProxyBody :=
  if data.isEmpty then .empty else ⟨.once (some data)⟩

def ProxyBody.stream (body : Incoming) : ProxyBody := ⟨.stream body⟩

def ProxyBody.http3 (body : RequestBody) : ProxyBody := ⟨.http3 none body⟩

/-- One chunk in front of another, when there is another. -/
def join (pre : Bytes) (held : Option Bytes) : Bytes :=
  match held with
  | none => pre
  | some held => pre ++ held

/-- Bytes already read from a body, followed by whatever is left of it. -/
def ProxyBody.prefixed (pre : Bytes) (rest : ProxyBody) : ProxyBody :=
  if pre.isEmpty then rest
  else
    match rest.inner with
    | .empty => .once pre
    | .once none => .once pre
    | .once (some tail) => .once (pre ++ tail)
    | .stream body => ⟨.prefixed (some pre) body⟩
    | .prefixed none body => ⟨.prefixed (some pre) body⟩
    | .prefixed (some held) body => ⟨.prefixed (some (pre ++ held)) body⟩
    | .http3 data body => ⟨.http3 (some (join pre data)) body⟩

/-- Whether a body is known, without reading it, to carry no data. -/
def ProxyBody.isKnownEmpty (body : ProxyBody) : Bool :=
  match body.inner with
  | .empty => true
  | .once data => data.all (·.isEmpty)
  | .stream body => body.sizeHint.exact = some 0
  | .prefixed _ _ => false
  | .http3 (some _) _ => false
  | .http3 none body => body.isKnownEmpty

def ProxyBody.pollFrame (body : ProxyBody) : Polled × ProxyBody :=
  match body.inner with
  | .empty => (none, body)
  | .once data => (data.map fun chunk => .ok (.data chunk), ⟨.once none⟩)
  | .stream body => (body.pollFrame.1, ⟨.stream body.pollFrame.2⟩)
  | .prefixed (some pre) body => (some (.ok (.data pre)), ⟨.prefixed none body⟩)
  | .prefixed none body => (body.pollFrame.1, ⟨.prefixed none body.pollFrame.2⟩)
  | .http3 (some pre) body => (some (.ok (.data pre)), ⟨.http3 none body⟩)
  | .http3 none body => (body.pollFrame.1, ⟨.http3 none body.pollFrame.2⟩)

/-- How much is held in front of a stream. -/
def heldLength (data : Option Bytes) : U64 := (data.map lengthU64).getD 0

def ProxyBody.sizeHint (body : ProxyBody) : SizeHint :=
  match body.inner with
  | .empty => .withExact 0
  | .once data => .withExact (heldLength data)
  | .stream body => body.sizeHint
  | .prefixed data body => body.sizeHint.behind (heldLength data)
  | .http3 data body => body.sizeHint.behind (heldLength data)

/-- The length a client declared, where it can be read. -/
def declaredLength (contentLength : Option Bytes) : Option U64 :=
  (contentLength.filter isVisible).bind fun value =>
    (parseUnsigned U64_MAX value).map fun n => Fin.ofNat 18446744073709551616 n

/-- The body of a request that arrived on a QUIC stream, which is asked once, without waiting,
whether it has already ended. -/
def requestBody (recv : RecvStream) (contentLength : Option Bytes) (ready : Bool) : ProxyBody :=
  let declared := declaredLength contentLength
  if declared = some 0 then .empty
  else
    let body : RequestBody := { stream := recv, remaining := declared }
    if declared.isNone then
      let (ended, body) := body.alreadyEnded ready
      if ended then .empty else .http3 body
    else .http3 body

end Bodies

section Polling

/-- How many frames a body has still to give. -/
def Inner.left : Inner → Nat
  | .empty => 0
  | .once data => data.toList.length
  | .stream body => body.data.length + body.trailers.toList.length + body.failure.toList.length
  | .prefixed data body => data.toList.length +
      (body.data.length + body.trailers.toList.length + body.failure.toList.length)
  | .http3 data body => data.toList.length + (body.queued.toList.length + body.stream.length)

theorem Incoming.left_pollFrame (body : Incoming) {frame : Except BodyError Frame}
    (h : body.pollFrame.1 = some frame) :
    body.pollFrame.2.data.length + body.pollFrame.2.trailers.toList.length +
      body.pollFrame.2.failure.toList.length <
        body.data.length + body.trailers.toList.length + body.failure.toList.length := by
  obtain ⟨data, trailers, failure, hint⟩ := body
  cases data with
  | cons chunk data => simp [Incoming.pollFrame]
  | nil =>
      cases trailers with
      | some fields => simp [Incoming.pollFrame]
      | none =>
          cases failure with
          | some error => simp [Incoming.pollFrame]
          | none => simp [Incoming.pollFrame] at h

theorem RequestBody.left_pollFrame (body : RequestBody) {frame : Except BodyError Frame}
    (h : body.pollFrame.1 = some frame) :
    body.pollFrame.2.queued.toList.length + body.pollFrame.2.stream.length <
      body.queued.toList.length + body.stream.length := by
  obtain ⟨stream, queued, remaining, ended⟩ := body
  cases queued with
  | some chunk => cases chunk <;> simp [RequestBody.pollFrame, RequestBody.deliver]
  | none =>
      cases ended with
      | true => simp [RequestBody.pollFrame] at h
      | false =>
          cases stream with
          | nil => simp [RequestBody.pollFrame] at h
          | cons chunk stream => cases chunk <;> simp [RequestBody.pollFrame, RequestBody.deliver]

theorem ProxyBody.left_pollFrame (body : ProxyBody) {frame : Except BodyError Frame}
    (h : body.pollFrame.1 = some frame) : body.pollFrame.2.inner.left < body.inner.left := by
  obtain ⟨inner⟩ := body
  cases inner with
  | empty => cases h
  | once data => cases data <;> simp_all [ProxyBody.pollFrame, Inner.left]
  | stream body => exact body.left_pollFrame h
  | prefixed data body =>
      cases data with
      | some pre => simp [ProxyBody.pollFrame, Inner.left]
      | none => simpa [ProxyBody.pollFrame, Inner.left] using body.left_pollFrame h
  | http3 data body =>
      cases data with
      | some pre => simp [ProxyBody.pollFrame, Inner.left]
      | none => simpa [ProxyBody.pollFrame, Inner.left] using body.left_pollFrame h

end Polling

section Mirroring

/-- What reading a request body for mirroring produced. -/
inductive Buffered where
  | complete (body : Bytes)
  | tooLarge (read : Bytes) (rest : ProxyBody)

/-- Reads a body up to a cap, behind what was already read of it. -/
def bufferFrom (read : Bytes) (body : ProxyBody) (cap : U64) : Buffered :=
  match _h : body.pollFrame.1 with
  | none => .complete read
  | some (.error _) => .tooLarge read body.pollFrame.2
  | some (.ok (.trailers _)) => .tooLarge read body.pollFrame.2
  | some (.ok (.data chunk)) =>
      if cap.val < (read ++ chunk).length then .tooLarge (read ++ chunk) body.pollFrame.2
      else bufferFrom (read ++ chunk) body.pollFrame.2 cap
termination_by body.inner.left
decreasing_by exact body.left_pollFrame _h

def buffer (body : ProxyBody) (cap : U64) : Buffered := bufferFrom [] body cap

/-- The body the primary request sends, and the copy of it where there is to be one. -/
def mirrorBody (body : ProxyBody) (maxBody : U64) : ProxyBody × Option Bytes :=
  if body.isKnownEmpty then (body, some [])
  else
    match buffer body maxBody with
    | .complete bytes => (.once bytes, some bytes)
    | .tooLarge read rest => (.prefixed read rest, none)

end Mirroring

end Ramjet.Proxy.Body
