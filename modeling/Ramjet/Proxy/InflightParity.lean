/- digest: How long either engine counts an exchange on the endpoint it was dispatched to. -/

import Ramjet.Engine.Worker.Inflight
import Ramjet.Router.Counters

set_option autoImplicit false
set_option relaxedAutoImplicit false

namespace Ramjet.Proxy.InflightParity

open Ramjet.Base.Octets
open Ramjet.Base.Net
open Ramjet.Base.Machine
open Ramjet.Router.Balancing
open Ramjet.Router.Counters (increment decrement)
open Ramjet.Router.Rule (U32_SIZE)
open Ramjet.Router.Stats

def BODY_NO_ENDPOINT : Bytes :=
  ascii "503 Service Unavailable: the backend has no ready endpoints\n"
def BODY_CONNECT_FAILED : Bytes :=
  ascii "502 Bad Gateway: could not connect to any upstream endpoint\n"
def BODY_UPSTREAM_FAILED : Bytes := ascii "502 Bad Gateway: the upstream connection failed\n"
def BODY_BAD_TARGET : Bytes := ascii "502 Bad Gateway: the endpoint address is not a valid URI\n"
def BODY_UPGRADE_FAILED : Bytes :=
  ascii "502 Bad Gateway: the upstream refused to complete the upgrade\n"
def BODY_TIMEOUT : Bytes :=
  ascii "504 Gateway Timeout: the upstream sent no response headers in time\n"
def BODY_GRPC : Bytes :=
  ascii "502 Bad Gateway: gRPC requires an HTTP/2 backend; " ++
    ascii "set nginx.ingress.kubernetes.io/backend-protocol: GRPC on the Ingress\n"

/-- Why an upstream exchange failed. -/
inductive UpstreamError where
  | connect
  | timeout
  | transport
  deriving DecidableEq, Repr

/-- Whether nothing was sent, and so a different endpoint may be tried. -/
def UpstreamError.isRetryable : UpstreamError → Bool
  | .connect => true
  | _ => false

/-- A response as the client library hands it over: its head, and what its peer has yet to send,
as a body or through the tunnel it opens. -/
structure Response where
  status : Nat
  upgrade : Option Bytes
  takeover : Bool
  rest : List Bytes
  deriving DecidableEq, Repr

/-- A request whose headers are rewritten, with the backend it goes to and that backend's
counters. -/
structure Outgoing where
  backend : Backend
  slot : Option (List Nat)
  grpc : Bool
  upgrade : Option Bytes
  takeover : Bool
  isKnownEmpty : Bool
  endpointUri : SocketAddr → Bool

/-- Where an exchange is: one attempt sent, under the guard taken for it; the response handed on,
with what has yet to be relayed of it; or answered by the proxy itself. -/
inductive Stage where
  | sending (index left : Nat) (inflight : Option Nat)
  | streaming (index : Nat) (rest : List Bytes)
  | replied (status : Nat) (body : Bytes)
  | dropped
  deriving DecidableEq, Repr

structure Exchange where
  out : Outgoing
  stage : Stage

/-- The hyper engine as its counters see it. -/
structure World where
  inflight : Nat → Nat
  exchanges : List Exchange := []

/-- What happens next: a request is dispatched, `send` comes back, a piece of a response is passed
on, or a client is gone. -/
inductive Act where
  | dispatch (out : Outgoing) (cursor rng : Nat)
  | answered (exchange : Nat) (response : Response)
  | failed (exchange : Nat) (error : UpstreamError)
  | relayed (exchange : Nat)
  | dropped (exchange : Nat)

section Counting

/-- `BackendSlot::acquire`: the counter a guard was taken on. -/
def acquire (slot : Option (List Nat)) (index : Nat) : Option Nat := slot.bind fun s => s[index]?

def World.acquired (w : World) : Option Nat → World
  | none => w
  | some handle =>
      { w with inflight := Function.update w.inflight handle (increment (w.inflight handle)) }

/-- The guard is dropped. -/
def World.released (w : World) : Option Nat → World
  | none => w
  | some handle =>
      { w with inflight := Function.update w.inflight handle (decrement (w.inflight handle)) }

end Counting

section Dispatching

/-- What the failures of all attempts come to. -/
def failureReply : Option UpstreamError → Stage
  | some .timeout => .replied 504 BODY_TIMEOUT
  | some .connect | none => .replied 502 BODY_CONNECT_FAILED
  | some .transport => .replied 502 BODY_UPSTREAM_FAILED

/-- One attempt, up to where its response is waited for; so many are left, this one included. -/
def attempt (w : World) (out : Outgoing) (index : Nat) (failure : Option UpstreamError) :
    Nat → World × Stage
  | 0 => (w, failureReply failure)
  | left + 1 =>
      match out.backend.endpoints[index]? with
      | none => (w, failureReply failure)
      | some endpoint =>
          if out.endpointUri endpoint.addr then
            let guard := acquire out.slot index
            (w.acquired guard, .sending index left guard)
          else (w, .replied 502 BODY_BAD_TARGET)

/-- `dispatch`, as far as its first attempt. -/
def dispatch (maxConnectAttempts : Nat) (w : World) (out : Outgoing) (cursor rng : Nat) :
    World × Stage :=
  if out.backend.protocol = .http1 && out.grpc then (w, .replied 502 BODY_GRPC)
  else if out.backend.endpoints.isEmpty then (w, .replied 503 BODY_NO_ENDPOINT)
  else
    let attempts :=
      if out.isKnownEmpty then min out.backend.endpoints.length maxConnectAttempts else 1
    let reading := out.slot.map fun slot =>
      (⟨cursor, fun i => ((slot[i]?).map w.inflight).getD 0⟩ : SlotReading)
    match selectEndpoint out.backend reading rng with
    | none => (w, .replied 503 BODY_NO_ENDPOINT)
    | some (index, _) => attempt w out index none attempts

/-- `relay`: the response is handed on, and whatever follows its head is relayed by others. -/
def relay (out : Outgoing) (index : Nat) (response : Response) : Stage :=
  if response.status = 101 then
    match out.takeover, response.takeover, response.upgrade.or out.upgrade with
    | true, true, some _ => .streaming index response.rest
    | _, _, _ => .replied 502 BODY_UPGRADE_FAILED
  else .streaming index response.rest

/-- What comes of a failed attempt: the next endpoint is tried, or the request answered. -/
def retry (w : World) (out : Outgoing) (index left : Nat) (error : UpstreamError) : World × Stage :=
  if error.isRetryable && left != 0 then
    attempt w out ((index + 1) % out.backend.endpoints.length) (some error) left
  else (w, failureReply (some error))

def World.put (w : World) (exchange : Nat) (x : Exchange) : World :=
  { w with exchanges := w.exchanges.set exchange x }

/-- One step of the engine. The guard of an attempt is a local of its iteration: it is dropped
where the iteration ends, and also where `dispatch` returns a response from within it. -/
def step (maxConnectAttempts : Nat) (w : World) : Act → Option World
  | .dispatch out cursor rng =>
      let begun := dispatch maxConnectAttempts w out cursor rng
      some { begun.1 with exchanges := begun.1.exchanges ++ [⟨out, begun.2⟩] }
  | .answered exchange response => do
      let x ← w.exchanges[exchange]?
      match x.stage with
      | .sending index _ guard =>
          some ((w.released guard).put exchange { x with stage := relay x.out index response })
      | _ => none
  | .failed exchange error => do
      let x ← w.exchanges[exchange]?
      match x.stage with
      | .sending index left guard =>
          let retried := retry (w.released guard) x.out index left error
          some (retried.1.put exchange { x with stage := retried.2 })
      | _ => none
  | .relayed exchange => do
      let x ← w.exchanges[exchange]?
      match x.stage with
      | .streaming index (_ :: rest) =>
          some (w.put exchange { x with stage := .streaming index rest })
      | _ => none
  | .dropped exchange => do
      let x ← w.exchanges[exchange]?
      match x.stage with
      | .sending _ _ guard => some ((w.released guard).put exchange { x with stage := .dropped })
      | .streaming _ _ => some (w.put exchange { x with stage := .dropped })
      | _ => none

end Dispatching

section Spans

/-- The endpoint an exchange occupies: from where it is sent until nothing is left to relay. -/
def Stage.occupies : Stage → Option Nat
  | .sending index _ _ => some index
  | .streaming index rest => if rest.all List.isEmpty then none else some index
  | _ => none

def Stage.guard : Stage → Option Nat
  | .sending _ _ guard => guard
  | _ => none

/-- An exchange holds the counter of the endpoint it occupies. -/
def Exchange.Counted (x : Exchange) : Prop :=
  ∀ index, x.stage.occupies = some index → x.stage.guard = acquire x.out.slot index

/-- How many exchanges hold a counter. -/
def guarded (w : World) (handle : Nat) : Nat :=
  w.exchanges.countP fun x => x.stage.guard == some handle

def Balanced (base : Nat → Nat) (w : World) : Prop :=
  ∀ handle, w.inflight handle ≡ base handle + guarded w handle [MOD U32_SIZE]

/-- Every exchange holds the counter of the endpoint it occupies, and the counters say how many
do. -/
structure Accounts (base : Nat → Nat) (w : World) : Prop where
  counted : ∀ x ∈ w.exchanges, x.Counted
  balanced : Balanced base w

/-- Whether anything follows the head of a response on its way to the client. -/
def Response.lasts (out : Outgoing) (response : Response) : Bool :=
  !response.rest.all List.isEmpty &&
    (response.status != 101 ||
      (out.takeover && response.takeover && (response.upgrade.or out.upgrade).isSome))

/-- What an upstream may answer with: nothing that lasts, where the attempt holds a counter. -/
def Spent (w : World) : Act → Prop
  | .answered exchange response => ∀ x, w.exchanges[exchange]? = some x →
      ∀ index left guard, x.stage = .sending index left guard →
        (acquire x.out.slot index).isSome = true → response.lasts x.out = false
  | _ => True

variable {base : Nat → Nat} {w w' : World} {out : Outgoing} {x y : Exchange} {i index left : Nat}
  {guard : Option Nat}

theorem relay_guard (out : Outgoing) (index : Nat) (response : Response) :
    (relay out index response).guard = none := by
  unfold relay
  split
  · split <;> rfl
  · rfl

/-- A response occupies its endpoint exactly as long as something follows its head. -/
theorem relay_occupies (out : Outgoing) (index : Nat) (response : Response) :
    (relay out index response).occupies = if response.lasts out then some index else none := by
  have hstreaming : (Stage.streaming index response.rest).occupies =
      if (!response.rest.all List.isEmpty) = true then some index else none := by
    show (if response.rest.all List.isEmpty then none else some index) = _
    cases response.rest.all List.isEmpty <;> rfl
  unfold relay Response.lasts
  by_cases hswitching : response.status = 101
  · rw [if_pos hswitching, hswitching]
    cases out.takeover with
    | false => simp [Stage.occupies]
    | true =>
        cases response.takeover with
        | false => simp [Stage.occupies]
        | true =>
            cases response.upgrade.or out.upgrade with
            | none => simp [Stage.occupies]
            | some protocol =>
                dsimp only
                rw [hstreaming]
                simp
  · have hother : (response.status != 101) = true := by
      rw [bne_iff_ne]
      exact hswitching
    rw [if_neg hswitching, hstreaming, hother, Bool.true_or, Bool.and_true]

/-- An attempt holds the counter of its endpoint while its response is waited for. -/
theorem attempt_stage (w : World) (out : Outgoing) (index : Nat) (failure : Option UpstreamError)
    (left : Nat) :
    (attempt w out index failure left).1 =
        w.acquired (attempt w out index failure left).2.guard ∧
      Exchange.Counted ⟨out, (attempt w out index failure left).2⟩ := by
  have hreplied : ∀ failure, (failureReply failure).guard = none ∧
      (failureReply failure).occupies = none := by
    intro failure
    cases failure with
    | none => exact ⟨rfl, rfl⟩
    | some error => cases error <;> exact ⟨rfl, rfl⟩
  have hfailed : w = w.acquired (failureReply failure).guard ∧
      Exchange.Counted ⟨out, failureReply failure⟩ := by
    refine ⟨?_, fun index hindex => ?_⟩
    · rw [(hreplied failure).1]
      rfl
    · rw [(hreplied failure).2] at hindex
      cases hindex
  unfold attempt
  split
  · exact hfailed
  · split
    · exact hfailed
    · split
      · refine ⟨rfl, fun index' hindex => ?_⟩
        cases hindex
        rfl
      · exact ⟨rfl, fun _ hindex => by cases hindex⟩

theorem dispatch_stage (maxConnectAttempts : Nat) (w : World) (out : Outgoing) (cursor rng : Nat) :
    (dispatch maxConnectAttempts w out cursor rng).1 =
        w.acquired (dispatch maxConnectAttempts w out cursor rng).2.guard ∧
      Exchange.Counted ⟨out, (dispatch maxConnectAttempts w out cursor rng).2⟩ := by
  have hreplied : ∀ status body, w = w.acquired (Stage.replied status body).guard ∧
      Exchange.Counted ⟨out, .replied status body⟩ :=
    fun _ _ => ⟨rfl, fun _ hindex => by cases hindex⟩
  unfold dispatch
  split
  · exact hreplied ..
  · split
    · exact hreplied ..
    · dsimp only
      split
      · exact hreplied ..
      · exact attempt_stage ..

theorem retry_stage (w : World) (out : Outgoing) (index left : Nat) (error : UpstreamError) :
    (retry w out index left error).1 = w.acquired (retry w out index left error).2.guard ∧
      Exchange.Counted ⟨out, (retry w out index left error).2⟩ := by
  have hreplied := attempt_stage w out index (some error) 0
  unfold retry
  split
  · exact attempt_stage ..
  · exact hreplied

theorem acquired_exchanges (w : World) (guard : Option Nat) :
    (w.acquired guard).exchanges = w.exchanges := by
  cases guard <;> rfl

theorem released_exchanges (w : World) (guard : Option Nat) :
    (w.released guard).exchanges = w.exchanges := by
  cases guard <;> rfl

theorem acquired_inflight (w : World) (guard : Option Nat) (handle : Nat) :
    (w.acquired guard).inflight handle ≡
      w.inflight handle + (if guard == some handle then 1 else 0) [MOD U32_SIZE] := by
  cases guard with
  | none => rfl
  | some held =>
      by_cases hhandle : handle = held
      · subst hhandle
        simp only [World.acquired, Function.update_self, beq_self_eq_true, if_true]
        exact Nat.mod_modEq _ _
      · have hne : (some held == some handle) = false := by
          rw [beq_eq_false_iff_ne]
          exact fun h => hhandle (Option.some.inj h).symm
        simp only [World.acquired, Function.update_of_ne hhandle, hne, Bool.false_eq_true, if_false]
        rfl

theorem modEq_decrement (n : Nat) : decrement n + 1 ≡ n [MOD U32_SIZE] := by
  have hback : decrement n + 1 ≡ n + U32_SIZE - 1 + 1 [MOD U32_SIZE] :=
    (Nat.mod_modEq _ _).add_right 1
  have hround : n + U32_SIZE - 1 + 1 = n + U32_SIZE := by
    unfold U32_SIZE
    omega
  rw [hround] at hback
  exact hback.trans (Nat.add_modEq_right ..)

theorem released_inflight (w : World) (guard : Option Nat) (handle : Nat) :
    (w.released guard).inflight handle + (if guard == some handle then 1 else 0) ≡
      w.inflight handle [MOD U32_SIZE] := by
  cases guard with
  | none => rfl
  | some held =>
      by_cases hhandle : handle = held
      · subst hhandle
        simp only [World.released, Function.update_self, beq_self_eq_true, if_true]
        exact modEq_decrement _
      · have hne : (some held == some handle) = false := by
          rw [beq_eq_false_iff_ne]
          exact fun h => hhandle (Option.some.inj h).symm
        simp only [World.released, Function.update_of_ne hhandle, hne, Bool.false_eq_true, if_false]
        rfl

/-- An exchange moved on, letting go of one guard and taking another. -/
theorem Balanced.put (hb : Balanced base w) (hx : w.exchanges[i]? = some x)
    (hw : w' = (w.released x.stage.guard).acquired y.stage.guard) : Balanced base (w'.put i y) := by
  intro handle
  obtain ⟨hi, hget⟩ := List.getElem?_eq_some_iff.mp hx
  have hexchanges : w'.exchanges = w.exchanges := by
    rw [hw, acquired_exchanges, released_exchanges]
  have hset : guarded (w'.put i y) handle + (if x.stage.guard == some handle then 1 else 0) =
      guarded w handle + (if y.stage.guard == some handle then 1 else 0) := by
    have hcount := List.countP_set (p := fun x : Exchange => x.stage.guard == some handle)
      (l := w.exchanges) (a := y) hi
    have hle : (if x.stage.guard == some handle then 1 else 0) ≤ guarded w handle := by
      split
      · rename_i hguard
        exact List.countP_pos_iff.mpr ⟨x, List.mem_of_getElem? hx, hguard⟩
      · exact Nat.zero_le _
    rw [hget] at hcount
    have hguarded : guarded (w'.put i y) handle =
        (w.exchanges.set i y).countP fun x => x.stage.guard == some handle := by
      show (w'.exchanges.set i y).countP _ = _
      rw [hexchanges]
    rw [hguarded, hcount]
    unfold guarded at hle ⊢
    omega
  have hafter : (w'.put i y).inflight handle + (if x.stage.guard == some handle then 1 else 0) ≡
      w.inflight handle + (if y.stage.guard == some handle then 1 else 0) [MOD U32_SIZE] := by
    show w'.inflight handle + _ ≡ _ [MOD U32_SIZE]
    rw [hw]
    have hacquired := (acquired_inflight (w.released x.stage.guard) y.stage.guard handle).add_right
      (if x.stage.guard == some handle then 1 else 0)
    have hreleased := (released_inflight w x.stage.guard handle).add_right
      (if y.stage.guard == some handle then 1 else 0)
    rw [Nat.add_right_comm] at hreleased
    exact hacquired.trans hreleased
  have hbefore := (hb handle).add_right (if y.stage.guard == some handle then 1 else 0)
  have hsum : base handle + guarded w handle + (if y.stage.guard == some handle then 1 else 0) =
      base handle + guarded (w'.put i y) handle +
        (if x.stage.guard == some handle then 1 else 0) := by
    omega
  rw [hsum] at hbefore
  exact Nat.ModEq.add_right_cancel' _ (hafter.trans hbefore)

theorem Balanced.begin (hb : Balanced base w) (hw : w' = w.acquired y.stage.guard) :
    Balanced base { w' with exchanges := w'.exchanges ++ [y] } := by
  intro handle
  have hguarded : guarded { w' with exchanges := w'.exchanges ++ [y] } handle =
      guarded w handle + (if y.stage.guard == some handle then 1 else 0) := by
    unfold guarded
    rw [hw, acquired_exchanges, List.countP_append, List.countP_singleton]
  rw [hguarded, ← Nat.add_assoc]
  show w'.inflight handle ≡ _ [MOD U32_SIZE]
  rw [hw]
  exact (acquired_inflight w y.stage.guard handle).trans ((hb handle).add_right _)

/-- What a step makes of one exchange: it is new, or was there and moved on. -/
theorem step_cases {maxConnectAttempts : Nat} {a : Act}
    (h : step maxConnectAttempts w a = some w') :
    (∃ out cursor rng y w₁, a = .dispatch out cursor rng ∧ w₁ = w.acquired y.stage.guard ∧
      y.Counted ∧ w' = { w₁ with exchanges := w₁.exchanges ++ [y] }) ∨
    ∃ i x y w₁, w.exchanges[i]? = some x ∧
      w₁ = (w.released x.stage.guard).acquired y.stage.guard ∧ w' = w₁.put i y ∧
      ((∃ index left guard response, a = .answered i response ∧
          x.stage = .sending index left guard ∧
          y = { x with stage := relay x.out index response }) ∨
        (∀ j response, a ≠ .answered j response) ∧ (x.Counted → y.Counted)) := by
  cases a with
  | dispatch out cursor rng =>
      simp only [step, Option.some.injEq] at h
      obtain ⟨hw, hcounted⟩ := dispatch_stage maxConnectAttempts w out cursor rng
      exact .inl ⟨out, cursor, rng, ⟨out, (dispatch maxConnectAttempts w out cursor rng).2⟩, _, rfl,
        hw, hcounted, h.symm⟩
  | answered i response =>
      simp only [step, Option.bind_eq_bind, Option.bind_eq_some_iff] at h
      obtain ⟨x, hx, h⟩ := h
      split at h
      · rename_i index left guard hstage
        rw [Option.some.injEq] at h
        refine .inr ⟨i, x, { x with stage := relay x.out index response }, w.released guard, hx, ?_,
          h.symm, .inl ⟨index, left, guard, response, rfl, hstage, rfl⟩⟩
        rw [hstage]
        show w.released guard = (w.released guard).acquired (relay x.out index response).guard
        rw [relay_guard]
        rfl
      · cases h
  | failed i error =>
      simp only [step, Option.bind_eq_bind, Option.bind_eq_some_iff] at h
      obtain ⟨x, hx, h⟩ := h
      split at h
      · rename_i index left guard hstage
        rw [Option.some.injEq] at h
        obtain ⟨hw, hcounted⟩ := retry_stage (w.released guard) x.out index left error
        refine .inr ⟨i, x,
          { x with stage := (retry (w.released guard) x.out index left error).2 }, _, hx, ?_, h.symm, .inr ⟨nofun, fun _ => hcounted⟩⟩
        rw [hstage]
        exact hw
      · cases h
  | relayed i =>
      simp only [step, Option.bind_eq_bind, Option.bind_eq_some_iff] at h
      obtain ⟨x, hx, h⟩ := h
      split at h
      · rename_i index piece rest hstage
        rw [Option.some.injEq] at h
        refine .inr ⟨i, x, { x with stage := .streaming index rest }, w, hx, ?_, h.symm,
          .inr ⟨nofun, fun hcounted index' hindex => ?_⟩⟩
        · rw [hstage]
          rfl
        · rw [Exchange.Counted, hstage] at hcounted
          refine hcounted index' ?_
          simp only [Stage.occupies] at hindex ⊢
          split at hindex
          · cases hindex
          · rename_i hleft
            rw [if_neg fun hall => hleft ?_]
            · exact hindex
            · rw [List.all_cons, Bool.and_eq_true] at hall
              exact hall.2
      · cases h
  | dropped i =>
      simp only [step, Option.bind_eq_bind, Option.bind_eq_some_iff] at h
      obtain ⟨x, hx, h⟩ := h
      have hcounted : x.Counted → Exchange.Counted { x with stage := .dropped } :=
        fun _ _ hindex => by cases hindex
      split at h
      · rename_i index left guard hstage
        rw [Option.some.injEq] at h
        refine .inr ⟨i, x, { x with stage := .dropped }, w.released guard, hx, ?_, h.symm,
          .inr ⟨nofun, hcounted⟩⟩
        rw [hstage]
        rfl
      · rename_i index rest hstage
        rw [Option.some.injEq] at h
        refine .inr ⟨i, x, { x with stage := .dropped }, w, hx, ?_, h.symm, .inr ⟨nofun, hcounted⟩⟩
        rw [hstage]
        rfl
      · cases h

theorem step_balanced {maxConnectAttempts : Nat} {a : Act} (hb : Balanced base w)
    (h : step maxConnectAttempts w a = some w') : Balanced base w' := by
  rcases step_cases h with ⟨_, _, _, y, w₁, -, hw, -, rfl⟩ | ⟨i, x, y, w₁, hx, hw, rfl, -⟩
  · exact hb.begin hw
  · exact hb.put hx hw

theorem put_counted (hall : ∀ z ∈ w.exchanges, z.Counted) (hx : w.exchanges[i]? = some x) :
    (∀ z ∈ (w.put i y).exchanges, z.Counted) ↔ y.Counted := by
  obtain ⟨hi, -⟩ := List.getElem?_eq_some_iff.mp hx
  constructor
  · intro hafter
    exact hafter y (List.mem_set hi y)
  · intro hy z hz
    rcases List.mem_or_eq_of_mem_set hz with hz | rfl
    · exact hall z hz
    · exact hy

/-- A step keeps every exchange on its counter exactly where what answers it does not last. -/
theorem step_accounts {maxConnectAttempts : Nat} {a : Act} (hw : Accounts base w)
    (h : step maxConnectAttempts w a = some w') : Accounts base w' ↔ Spent w a := by
  have hbalanced := step_balanced hw.balanced h
  rcases step_cases h with ⟨out, cursor, rng, y, w₁, rfl, hbegun, hy, rfl⟩ |
    ⟨i, x, y, w₁, hx, hmoved, rfl, hcase⟩
  · refine ⟨fun _ => trivial, fun _ => ⟨fun z hz => ?_, hbalanced⟩⟩
    rcases List.mem_append.mp hz with hz | hz
    · rw [hbegun, acquired_exchanges] at hz
      exact hw.counted z hz
    · rw [List.mem_singleton.mp hz]
      exact hy
  · have hsame : w₁.exchanges = w.exchanges := by
      rw [hmoved, acquired_exchanges, released_exchanges]
    have hcounted : (∀ z ∈ (w₁.put i y).exchanges, z.Counted) ↔ y.Counted :=
      put_counted (fun z hz => hw.counted z (hsame ▸ hz)) (hsame ▸ hx)
    have haccounts : Accounts base (w₁.put i y) ↔ y.Counted :=
      ⟨fun h => hcounted.mp h.counted, fun hy => ⟨hcounted.mpr hy, hbalanced⟩⟩
    rw [haccounts]
    rcases hcase with ⟨index, left, guard, response, rfl, hstage, rfl⟩ | ⟨hother, hkeeps⟩
    · have hheld : guard = acquire x.out.slot index := by
        have hx' := hw.counted x (List.mem_of_getElem? hx) index
        rw [hstage] at hx'
        exact hx' rfl
      constructor
      · intro hy x' hx' index' left' guard' hstage' hsome
        rw [hx, Option.some.injEq] at hx'
        subst hx'
        rw [hstage, Stage.sending.injEq] at hstage'
        obtain ⟨rfl, -, -⟩ := hstage'
        by_contra hlasts
        rw [Bool.not_eq_false] at hlasts
        have hoccupies := relay_occupies x.out index response
        rw [hlasts, if_pos rfl] at hoccupies
        have hnone := hy index hoccupies
        rw [relay_guard] at hnone
        have hnone' : acquire x.out.slot index = none := hnone.symm
        rw [hnone'] at hsome
        cases hsome
      · intro hspent index' hindex
        have hoccupies : (relay x.out index response).occupies = some index' := hindex
        rw [relay_occupies] at hoccupies
        split at hoccupies
        · rename_i hlasts
          rw [Option.some.injEq] at hoccupies
          subst hoccupies
          show (relay x.out index response).guard = acquire x.out.slot index
          rw [relay_guard]
          cases hacquired : acquire x.out.slot index with
          | none => rfl
          | some handle =>
              have hdone := hspent x hx index left guard hstage (by rw [hacquired]; rfl)
              rw [hlasts] at hdone
              cases hdone
        · cases hoccupies
    · refine ⟨fun _ => ?_, fun _ => hkeeps (hw.counted x (List.mem_of_getElem? hx))⟩
      cases a with
      | answered j response => exact absurd rfl (hother j response)
      | _ => trivial

end Spans

section Both

open Ramjet.Engine.Worker.Connection (Snapshot)
open Ramjet.Engine.Worker.Core (Config Outside)
open Ramjet.Engine.Worker.Loop (Fixtures)
open Ramjet.Engine.Worker.Coherence

/-- Both engines count every exchange on its endpoint for as long as it lasts exactly where, in the
hyper engine, nothing lasts beyond the head of its response. -/
theorem held_iff (maxConnectAttempts : Nat) (before : Nat → Nat) (acts : List Act) (env : Outside)
    (config : Config) (fixtures : Fixtures) (pool : Nat × Nat) (routes : Snapshot)
    (routeSlots : Nat → RouteSlot) (base : Nat → Nat) (completions : List Engine.Worker.Loop.Act)
    (htime : Meets (Engine.Worker.Loop.step env) OnTime
      (begun config fixtures pool routes routeSlots base) completions) :
    Always (step maxConnectAttempts) (Accounts before) ⟨before, []⟩ acts ∧
        Always (Engine.Worker.Loop.step env) (Engine.Worker.Inflight.Accounts base)
          (begun config fixtures pool routes routeSlots base) completions ↔
      Meets (step maxConnectAttempts) Spent ⟨before, []⟩ acts := by
  have huring := Engine.Worker.Inflight.accounts_always htime
  have hempty : Balanced before ⟨before, []⟩ := fun _ => rfl
  have hfree : ∀ w a, Balanced before w → step maxConnectAttempts w a = none → Spent w a := by
    intro w a _ hnone
    cases a with
    | answered i response =>
        intro x hx index left guard hstage
        simp only [step, hx, Option.bind_eq_bind, Option.bind_some, hstage] at hnone
        cases hnone
    | _ => trivial
  have hhyper := always_iff_meets (fun w a w' hb hnext => step_balanced hb hnext) hfree
    (fun w a w' _ hw hnext => step_accounts hw hnext) hempty
    ⟨fun _ hx => absurd hx List.not_mem_nil, hempty⟩ acts
  exact ⟨fun h => hhyper.mp h.1, fun h => ⟨hhyper.mpr h, huring⟩⟩

/-- A backend with one endpoint, and one counter for it. -/
def single : Outgoing where
  backend := ⟨[], [⟨leastEndpoint, 1⟩], .leastConn, .http1, 0, none⟩
  slot := some [0]
  grpc := false
  upgrade := none
  takeover := false
  isKnownEmpty := true
  endpointUri := fun _ => true

/-- An empty response, while a core serves a client. -/
theorem held_iff_empty :
    Always (step 3) (Accounts fun _ => 0) ⟨fun _ => 0, []⟩
        [.dispatch single 0 0, .answered 0 ⟨204, none, false, []⟩] ∧
      Always (Engine.Worker.Loop.step leastOutside) (Engine.Worker.Inflight.Accounts fun _ => 0)
        leastCore [.complete (leastOp .accept 3 0 0) (.accepted 5) leastAnswers] := by
  have htime : OnTime leastCore (.complete (leastOp .accept 3 0 0) (.accepted 5) leastAnswers) := by
    unfold OnTime Engine.Worker.Core.GENERATIONS
    decide
  refine (held_iff 3 (fun _ => 0) _ leastOutside leastConfig leastFixtures (1, 1) leastSnapshot
    (fun _ => {}) (fun _ => 0) [.complete (leastOp .accept 3 0 0) (.accepted 5) leastAnswers]
    ⟨htime, fun _ _ => trivial⟩).mpr ?_
  refine ⟨trivial, fun w _ => ⟨?_, fun _ _ => trivial⟩⟩
  intro x _ index left guard _ _
  rfl

/-- A response with a byte of body still to come leaves its endpoint uncounted. -/
theorem not_held_of_body :
    ¬ Always (step 3) (Accounts fun _ => 0) ⟨fun _ => 0, []⟩
      [.dispatch single 0 0, .answered 0 ⟨200, none, false, [[65]]⟩] := by
  intro h
  have hanswered := ((h.2 _ rfl).2 _ rfl).counted
  have hheld := hanswered _ (List.mem_singleton_self _) 0 rfl
  cases hheld

end Both

end Ramjet.Proxy.InflightParity
