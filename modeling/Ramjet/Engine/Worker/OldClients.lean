/- digest: What an HTTP/1.0 client is relayed, it can delimit, unless chunks or a lost length. -/

import Ramjet.Engine.Worker.Relaying

set_option autoImplicit false
set_option relaxedAutoImplicit false

namespace Ramjet.Engine.Worker.OldClients

open Ramjet.Base.Octets
open Ramjet.Base.Net
open Ramjet.Base.Machine
open Ramjet.Engine.Codec.MessageHead
open Ramjet.Engine.Codec.AcceptedHead
open Ramjet.Engine.Codec.BodyFraming
open Ramjet.Engine.Codec.Chunked
open Ramjet.Engine.Headers
open Ramjet.Engine.WrittenHead
open Ramjet.Engine.RewrittenFields
open Ramjet.Engine.FramingAgreement
open Ramjet.Engine.HeadGrowth
open Ramjet.Engine.IdlePool
open Ramjet.Engine.Worker.Connection
open Ramjet.Engine.Worker.Core
open Ramjet.Engine.Worker.Serving
open Ramjet.Engine.Worker.Handlers
open Ramjet.Engine.Worker.Loop
open Ramjet.Engine.Worker.Coherence
open Ramjet.Engine.Worker.Shifts
open Ramjet.Engine.Worker.Relaying
open Ramjet.Router.Stats

section Contents

/-- Whether the scanner is inside the data of a chunk. -/
def State.isData : State → Bool
  | .data _ => true
  | _ => false

/-- The data of the chunks in some bytes, without what frames it. -/
def chunkData (scan : ChunkScan) : Bytes → Bytes
  | [] => []
  | b :: rest =>
      if scan.isDone then []
      else
        (if State.isData scan.state then [b] else []) ++
          ((scan.step b).toOption.map fun next => chunkData next rest).getD []

/-- What some bytes of a body are content of, under its framing. -/
def content : Framing → Bytes → Bytes
  | .empty, _ => []
  | .length n, bytes => bytes.take n
  | .chunked, bytes => chunkData {} bytes
  | .untilClose, bytes => bytes

/-- A chunk's data is content and the framing around it is not. -/
example : content .chunked (ascii "3\r\nabc\r\n1;x\r\nd\r\n0\r\n\r\n") = ascii "abcd" := by
  decide

end Contents

section Delimiting

/-- The length a head that was sent declares. -/
def declaredLength (out : Bytes) : Except CodecError (Option Nat) :=
  lengthValues ((named (receivedFields out) (ascii "content-length")).map (·.2))

/-- Whether a response of this status has no body, whatever its head says. -/
def Bodyless (c : Conn) : Prop :=
  c.upHead.status.any (fun code => bodyless code c.methodWasHead) = true

/-- The connection ends with the exchange it has. -/
def Ending (c : Conn) : Prop :=
  c.phase = .tunnel ∨ c.phase = .closing ∨ c.ended.phase = .closing

/-- What tells the client where the body of its response ends. -/
inductive Marked (c : Conn) (e : Exchange) (r : Relay) : Prop
  | status (h : Bodyless c)
  | length (n : Nat) (hdeclared : declaredLength r.head = .ok (some n))
      (hlength : delimiting c e = .length n ∨ (delimiting c e = .empty ∧ n = 0))
  | close (h : Ending c)

/-- A client that knows no transfer coding can read the response it is sent: the head names none,
behind it is the content of what was taken of the upstream's body and nothing else, and its end is
marked. -/
structure Delimited (c : Conn) (e : Exchange) (r : Relay) : Prop where
  head : named (receivedFields r.head) (ascii "transfer-encoding") = []
  body : r.intruded = false → ∃ took, r.received = took ++ c.upInbox ∧
    r.since = r.head ++ content (delimiting c e) took ∧
    (c.responseBody.isDone = true → delimiting c e ≠ .untilClose →
      content (delimiting c e) took = content (delimiting c e) r.received)
  marked : Marked c e r

/-- The upstream's response is not chunked, and a length it declares is relayed where nothing else
marks the end. -/
def Plain (c : Conn) (e : Exchange) : Prop :=
  delimiting c e ≠ .chunked ∧
    (Bodyless c ∨ Ending c ∨
      connectionLists c.upHead (heard e) (ascii "content-length") = false)

variable {env : Outside} {c : Conn} {e : Exchange} {r : Relay}

theorem ending_of_last (h : c.clientKeepAlive = false) : Ending c := by
  refine .inr (.inr ?_)
  unfold Conn.ended
  rw [h]
  rfl

/-- The fields of a response head that was queued, as its client reads them. -/
theorem receivedFields_response (hreason : ∀ code, CrlfFree (env.enc.reason code))
    (harrived : ∃ h0, parseResponseHead .standard (heard e) h0 = (.ok true, c.upHead))
    {framing : Framing} {close : Bool} {upgrade : Option Bytes}
    (hupgrade : ∀ p ∈ upgrade, Clean p)
    (hhead : r.head =
      writeDownstreamResponse env.enc.reason c.upHead (heard e) framing close upgrade) :
    (named (receivedFields r.head) (ascii "transfer-encoding")).map (·.2) = restatedCodings framing ∧
      declaredLength r.head = lengthValues (keptLengths c.upHead (heard e)) := by
  obtain ⟨h0, hparse⟩ := harrived
  obtain ⟨code, reason, version, hstart, -, hfree, hread⟩ := accepted_response hparse
  have hphrase : CrlfFree (if reason.isEmpty then env.enc.reason code
      else reason.bytes (heard e)) := by
    split
    · exact hreason code
    · exact hfree
  have hfields : receivedFields r.head =
      readBack (downstreamFields c.upHead (heard e) framing close upgrade) := by
    rw [hhead, writeDownstreamResponse_eq c.upHead (heard e) framing close upgrade _ hstart]
    exact receivedFields_written (crlfFree_statusLine code hphrase)
      (fieldOk_downstreamFields hread hupgrade framing close)
  refine ⟨?_, ?_⟩
  · rw [hfields]
    exact downstream_codings hread framing close upgrade
  · unfold declaredLength
    rw [hfields, downstream_lengths hread framing close upgrade]

theorem delimiting_response {framing : Framing} (hstatus : isSwitchingProtocols c.upHead = false)
    (hframing : responseFraming c.upHead (heard e) c.methodWasHead = .ok framing) :
    delimiting c e = framing := by
  unfold delimiting
  rw [hstatus, hframing]
  rfl

/-- A head that was queued names a transfer coding where the upstream's body is chunked. -/
theorem codings_iff (hreason : ∀ code, CrlfFree (env.enc.reason code)) (h : Relayed env c e r) :
    named (receivedFields r.head) (ascii "transfer-encoding") = [] ↔ delimiting c e ≠ .chunked := by
  have hcodings : ∀ framing, restatedCodings framing = [] ↔ framing ≠ .chunked := by
    intro framing
    unfold restatedCodings
    split
    · rename_i hchunked
      exact ⟨nofun, fun hne => absurd hchunked hne⟩
    · rename_i hchunked
      exact ⟨fun _ => hchunked, fun _ => rfl⟩
  cases h.written with
  | response hstatus hframing hhead =>
      have hfields := (receivedFields_response hreason h.arrived (by nofun) hhead).1
      rw [delimiting_response hstatus hframing, ← hcodings, ← hfields, List.map_eq_nil_iff]
  | upgrade hstatus hclean hhead =>
      have hfields := (receivedFields_response hreason h.arrived
        (by rintro p ⟨⟩; exact hclean) hhead).1
      rw [delimiting_upgrade e hstatus, ← List.map_eq_nil_iff (f := (·.2)), hfields]
      exact iff_of_true rfl nofun

/-- What is queued behind the head is content, but for chunks. -/
theorem content_of_reached {body : Bytes} {framing : Framing} {left : Body}
    (h : Reached body framing left) (hplain : framing ≠ .chunked) (rest : Bytes) :
    content framing body = body ∧ (left.isDone = true → framing ≠ .untilClose →
      content framing body = content framing (body ++ rest)) := by
  cases h with
  | empty hnil =>
      subst hnil
      exact ⟨rfl, fun _ _ => rfl⟩
  | @length n left hsum =>
      refine ⟨List.take_of_length_le (by omega), ?_⟩
      intro hdone
      cases hdone
  | lengthDone hlen =>
      subst hlen
      refine ⟨List.take_length, fun _ _ => ?_⟩
      show body.take body.length = (body ++ rest).take body.length
      rw [List.take_length, List.take_left]
  | chunked | chunkedDone => exact absurd rfl hplain
  | untilClose => exact ⟨rfl, fun _ hne => absurd rfl hne⟩

theorem body_of_plain (h : Relayed env c e r) (hplain : delimiting c e ≠ .chunked)
    (hclean : r.intruded = false) : ∃ took, r.received = took ++ c.upInbox ∧
      r.since = r.head ++ content (delimiting c e) took ∧
      (c.responseBody.isDone = true → delimiting c e ≠ .untilClose →
        content (delimiting c e) took = content (delimiting c e) r.received) := by
  obtain ⟨body, hsince, hreceived, hreached⟩ := h.body hclean
  obtain ⟨hall, hwhole⟩ := content_of_reached hreached hplain c.upInbox
  refine ⟨body, hreceived, ?_, ?_⟩
  · rw [hall]
    exact hsince
  · rw [hreceived]
    exact hwhole

/-- A client learns where the body ends exactly where the status says so, the connection closes
or the declared length is left in. -/
theorem marked_iff (hreason : ∀ code, CrlfFree (env.enc.reason code)) (h : Relayed env c e r)
    (hplain : delimiting c e ≠ .chunked) : Marked c e r ↔ Bodyless c ∨ Ending c ∨
      connectionLists c.upHead (heard e) (ascii "content-length") = false := by
  cases h.written with
  | upgrade hstatus hclean hhead hphase =>
      have hending : Ending c := by
        rcases hphase with htunnel | hclosing
        · exact .inl htunnel
        · exact .inr (.inl hclosing)
      exact iff_of_true (.close hending) (.inr (.inl hending))
  | @response framing close hstatus hframing hhead hclose hends hphase =>
      have hlengths := (receivedFields_response hreason h.arrived (by nofun) hhead).2
      have hdelimiting := delimiting_response hstatus hframing
      refine ⟨fun hmarked => ?_, fun hplainly => ?_⟩
      · cases hmarked with
        | status hnone => exact .inl hnone
        | close hending => exact .inr (.inl hending)
        | length n hdeclared =>
            refine .inr (.inr ?_)
            rw [hlengths] at hdeclared
            -- A length dropped on the way is not declared to the client.
            cases hlisted : connectionLists c.upHead (heard e) (ascii "content-length") with
            | false => rfl
            | true =>
                unfold keptLengths at hdeclared
                rw [if_pos hlisted] at hdeclared
                cases hdeclared
      · rcases hplainly with hnone | hending | hkept
        · exact .status hnone
        · exact .close hending
        · obtain ⟨h0, hparse⟩ := h.arrived
          obtain ⟨code, reason, version, hstart, -⟩ := accepted_response hparse
          have hdeclared : ∀ {n : Option Nat}, contentLength c.upHead (heard e) = .ok n →
              declaredLength r.head = .ok n := by
            intro n hlength
            rw [hlengths, lengthValues_kept hlength, hkept]
            rfl
          rcases responseFraming_cases hstart hframing with ⟨hbodyless, -⟩ | ⟨-, hcases⟩
          · refine .status ?_
            unfold Bodyless Head.status
            rw [hstart]
            exact hbodyless
          · rcases hcases with ⟨rfl, -⟩ | ⟨rfl, -⟩ | ⟨rfl, hlength⟩ | ⟨n, rfl, -, hlength⟩
            · exact absurd hdelimiting hplain
            · exact .close (ending_of_last (hends (hclose rfl)))
            · exact .length 0 (hdeclared hlength) (.inr ⟨hdelimiting, rfl⟩)
            · exact .length n (hdeclared hlength) (.inl hdelimiting)

theorem delimited_of_told (hreason : ∀ code, CrlfFree (env.enc.reason code)) (h : Told env c)
    (he : c.book.current = some e) (hr : e.relay = some r) : Delimited c e r ↔ Plain c e := by
  have hrelayed := (h.after e r he hr).2
  refine ⟨fun hdelimited => ?_, fun ⟨hplain, hends⟩ => ?_⟩
  · have hplain := (codings_iff hreason hrelayed).mp hdelimited.head
    exact ⟨hplain, (marked_iff hreason hrelayed hplain).mp hdelimited.marked⟩
  · exact ⟨(codings_iff hreason hrelayed).mpr hplain, body_of_plain hrelayed hplain,
      (marked_iff hreason hrelayed hplain).mpr hends⟩

end Delimiting

section Runs

/-- An HTTP/1.0 client can read the response it is sent exactly where that is plain. -/
def Readable (m : Machine) : Prop := ∀ c, Seen m.world c → ∀ e r, c.book.current = some e →
  e.relay = some r → c.head.version = .http10 → (Delimited c e r ↔ Plain c e)

/-- In every run, whatever is relayed to an HTTP/1.0 client is delimited for it exactly where the
upstream's response is not chunked and its declared length, where the client needs it, is not one
that `Connection` names. -/
theorem readable_always (env : Outside) (hreason : ∀ code, CrlfFree (env.enc.reason code))
    (config : Config) (fixtures : Fixtures) (pool : Nat × Nat) (routes : Snapshot)
    (routeSlots : Nat → RouteSlot) (inflight : Nat → Nat) (acts : List Act)
    (htime : Meets (step env) OnTime
      (begun config fixtures pool routes routeSlots inflight) acts) :
    Always (step env) Readable (begun config fixtures pool routes routeSlots inflight) acts :=
  (told_lasts env).always
    (fun _ htold c hseen _ _ he hr _ => delimited_of_told hreason (htold c hseen) he hr) htime

attribute [local instance] fdRoom

/-- An HTTP/1.0 request is dispatched, and its upstream answers. -/
def answeredBy (response : Bytes) : List Act :=
  let dialled := { leastAnswers with connect := some (6, true) }
  let request := ascii "GET / HTTP/1.0\r\nHost: a\r\n\r\n"
  [.complete (leastOp .accept 3 0 0) (.accepted 5) leastAnswers,
    .complete (leastOp .downRead 5 1 1) (.read request) leastAnswers,
    .turn dialled, .turn leastAnswers, .turn leastAnswers, .turn leastAnswers,
    .send 6 response, .complete (leastOp .upRead 6 0 1) (.read response) leastAnswers,
    .turn leastAnswers]

/-- A response of a declared length, relayed to such a client. -/
theorem readable_of_length :
    Always (step leastOutside) Readable leastCore
      (answeredBy (ascii "HTTP/1.1 200 \r\nContent-Length: 2\r\n\r\no")) := by
  have hreason : ∀ code, CrlfFree (leastOutside.enc.reason code) :=
    fun _ => crlfFree_of_not_mem List.not_mem_nil
  have htime : checks (step leastOutside) comesInTime leastCore
      (answeredBy (ascii "HTTP/1.1 200 \r\nContent-Length: 2\r\n\r\no")) = true := by
    decide +kernel
  exact readable_always leastOutside hreason leastConfig leastFixtures (1, 1)
    leastSnapshot (fun _ => {}) (fun _ => 0) _ (meets_of_checks (fun _ _ => onTime_of_comes) htime)

/-- Whether the client on a descriptor speaks HTTP/1.0 and is sent a transfer coding. -/
def sentCodings (fd : Fd) (m : Machine) : Bool :=
  (m.world.slots fd).leaves.any fun conn =>
    conn.head.version == .http10 && conn.book.current.any fun e => e.relay.any fun r =>
      !(named (receivedFields r.head) (ascii "transfer-encoding")).isEmpty

theorem not_delimited_of_chunked :
    ∃ m, run (step leastOutside) leastCore
        (answeredBy (ascii "HTTP/1.1 200 \r\nTransfer-Encoding: chunked\r\n\r\n1\r\na\r\n")) =
          some m ∧
      ∃ c, Seen m.world c ∧ ∃ e r, c.book.current = some e ∧ e.relay = some r ∧
        c.head.version = .http10 ∧ ¬ Delimited c e r := by
  have hsent : (run (step leastOutside) leastCore
      (answeredBy (ascii "HTTP/1.1 200 \r\nTransfer-Encoding: chunked\r\n\r\n1\r\na\r\n"))).any
        (sentCodings 5) = true := by
    decide +kernel
  obtain ⟨m, hm, hcodings⟩ := (Option.any_eq_true ..).mp hsent
  obtain ⟨c, hc, hold⟩ := List.any_eq_true.mp hcodings
  simp only [Bool.and_eq_true, beq_iff_eq] at hold
  obtain ⟨e, he, hrelays⟩ := (Option.any_eq_true ..).mp hold.2
  obtain ⟨r, hr, hnamed⟩ := (Option.any_eq_true ..).mp hrelays
  have hslot : m.world.slots 5 = .client c := by
    cases hslot : m.world.slots 5 with
    | client conn =>
        rw [hslot, Slot.leaves, List.mem_singleton] at hc
        rw [hc]
    | _ =>
        rw [hslot] at hc
        cases hc
  refine ⟨m, hm, c, .slot hslot, e, r, he, hr, hold.1, fun hdelimited => ?_⟩
  rw [hdelimited.head] at hnamed
  cases hnamed

end Runs

end Ramjet.Engine.Worker.OldClients
