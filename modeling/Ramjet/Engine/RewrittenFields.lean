/- digest: The field list a rewritten head carries, and which names it can carry. -/

import Ramjet.Engine.WrittenHead

set_option autoImplicit false
set_option relaxedAutoImplicit false

namespace Ramjet.Engine.RewrittenFields

open Ramjet.Base.Octets
open Ramjet.Base.Net
open Ramjet.Engine.Codec.MessageHead
open Ramjet.Engine.Codec.AcceptedHead
open Ramjet.Engine.Codec.BodyFraming
open Ramjet.Engine.Headers
open Ramjet.Engine.WrittenHead

section Names

theorem hasToken_congr {a b : Bytes} (h : eqIgnoreAsciiCase a b = true) (value : Bytes) :
    hasToken value a = hasToken value b := by
  simp only [hasToken]
  congr 1
  funext part
  rw [eqIgnoreAsciiCase_comm, eqIgnoreAsciiCase_congr h, eqIgnoreAsciiCase_comm]

theorem connectionLists_congr {a b : Bytes} (h : eqIgnoreAsciiCase a b = true) (head : Head)
    (buf : Bytes) : connectionLists head buf a = connectionLists head buf b := by
  simp only [connectionLists, hasToken_congr h]

theorem isHopByHop_congr {a b : Bytes} (h : eqIgnoreAsciiCase a b = true) :
    isHopByHop a = isHopByHop b := by
  simp only [isHopByHop, eqIgnoreAsciiCase_congr h]

/-- Whether a name is forwarded does not depend on its case. -/
theorem isForwardable_congr {a b : Bytes} (h : eqIgnoreAsciiCase a b = true) (head : Head)
    (buf : Bytes) : isForwardable head buf a = isForwardable head buf b := by
  simp only [isForwardable, isHopByHop_congr h, isSelfWritten, eqIgnoreAsciiCase_congr h,
    connectionLists_congr h]

theorem isRelayed_congr {a b : Bytes} (h : eqIgnoreAsciiCase a b = true) (head : Head)
    (buf : Bytes) : isRelayed head buf a = isRelayed head buf b := by
  simp only [isRelayed, isHopByHop_congr h, eqIgnoreAsciiCase_congr h, connectionLists_congr h]

/-- Filtering by a case-blind predicate keeps all the fields of a name or none. -/
theorem named_filter (fields : List (Bytes × Bytes)) {p : Bytes → Bool}
    (hp : ∀ a b, eqIgnoreAsciiCase a b = true → p a = p b) (name : Bytes) :
    named (fields.filter fun f => p f.1) name = if p name then named fields name else [] := by
  induction fields with
  | nil => simp [named]
  | cons f fs ih =>
      simp only [named, List.filter_cons] at ih ⊢
      by_cases hname : eqIgnoreAsciiCase f.1 name = true
      · rw [hp f.1 name hname]
        by_cases hkeep : p name = true
        · simp_all
        · simp only [hkeep, Bool.false_eq_true, if_false] at ih ⊢
          exact ih
      · by_cases hkeep : p f.1 = true <;> simp_all

@[simp] theorem named_nil (name : Bytes) : named [] name = [] := rfl

@[simp] theorem named_append (a b : List (Bytes × Bytes)) (name : Bytes) :
    named (a ++ b) name = named a name ++ named b name := List.filter_append ..

@[simp] theorem readBack_append (a b : List (Bytes × Bytes)) :
    readBack (a ++ b) = readBack a ++ readBack b := List.map_append

theorem readBack_length (fields : List (Bytes × Bytes)) :
    (readBack fields).length = fields.length := List.length_map _

theorem named_readBack (fields : List (Bytes × Bytes)) (name : Bytes) :
    named (readBack fields) name = readBack (named fields name) := by
  simp only [named, readBack, List.filter_map]
  rfl

/-- Fields as the parser leaves them are read back unchanged. -/
theorem readBack_eq_self {fields : List (Bytes × Bytes)} (h : ∀ f ∈ fields, FieldRead f) :
    readBack fields = fields := by
  induction fields with
  | nil => rfl
  | cons f fs ih =>
      have hf : (f.1, trimOws f.2) = f := by rw [(h f (by simp)).value_trimmed]
      simp only [readBack, List.map_cons, hf] at ih ⊢
      rw [ih fun g hg => h g (by simp [hg])]

end Names

section Clean

/-- Text without a control byte. -/
def Clean (v : Bytes) : Prop := ∀ b ∈ v, isControl b = false

theorem clean_literal {s : String} (h : (ascii s).any isControl = false) : Clean (ascii s) := by
  intro b hb
  simpa using List.any_eq_false.mp h b hb

theorem clean_append {a b : Bytes} (ha : Clean a) (hb : Clean b) : Clean (a ++ b) := by
  intro x hx
  rcases List.mem_append.mp hx with hx | hx
  · exact ha x hx
  · exact hb x hx

theorem clean_of_alphanumeric {v : Bytes} (h : ∀ b ∈ v, isAsciiAlphanumeric b = true) :
    Clean v := by
  intro b hb
  have hb := h b hb
  by_contra hcontrol
  simp only [Bool.not_eq_false, isControl, Bool.or_eq_true, Bool.and_eq_true, bne_iff_ne,
    decide_eq_true_eq, beq_iff_eq] at hcontrol
  simp only [isAsciiAlphanumeric, isAsciiDigit, Bool.or_eq_true, Bool.and_eq_true,
    decide_eq_true_eq, UInt8.le_iff_toNat_le] at hb
  rcases hcontrol with ⟨hlow, -⟩ | rfl
  · rw [UInt8.lt_iff_toNat_lt] at hlow
    have h32 : (0x20 : UInt8).toNat = 32 := rfl
    have h48 : (48 : UInt8).toNat = 48 := rfl
    have h65 : (65 : UInt8).toNat = 65 := rfl
    have h97 : (97 : UInt8).toNat = 97 := rfl
    omega
  · revert hb
    decide

theorem clean_decimal (n : Nat) : Clean (decimal n) :=
  clean_of_alphanumeric fun _ => isAsciiAlphanumeric_of_mem_numeral (by omega) (by omega)

theorem IpAddr.clean_display (ip : IpAddr) : Clean ip.display := by
  intro b hb
  have hoctet := IpAddr.display_octets ip b hb
  rw [isAddressOctet, Bool.or_eq_true, Bool.or_eq_true, beq_iff_eq, beq_iff_eq] at hoctet
  rcases hoctet with (halnum | rfl) | rfl
  · exact clean_of_alphanumeric (v := [b]) (fun x hx => by rwa [List.mem_singleton.mp hx]) b
      (List.mem_singleton_self b)
  · decide
  · decide

theorem SocketAddr.clean_display (a : SocketAddr) : Clean a.display := by
  have hip := IpAddr.clean_display a.ip
  simp only [SocketAddr.display]
  split
  · exact clean_append (clean_append hip (clean_literal (by decide))) (clean_decimal _)
  · refine clean_append (clean_append (clean_append (clean_append ?_ hip) ?_) ?_)
      (clean_decimal _)
    · exact clean_literal (by decide)
    · split
      · simp [Clean]
      · exact clean_append (clean_literal (by decide)) (clean_decimal _)
    · exact clean_literal (by decide)

end Clean

section Request

variable (head : Head) (buf : Bytes) (hop : Hop) (endpoint : SocketAddr) (framing : Framing)
  (close : Bool) (upgrade : Option Bytes) (fresh : HexId)

/-- The fields that close a rewritten head, as a list. -/
def closingList : List (Bytes × Bytes) :=
  (if framing = .chunked then [(ascii "Transfer-Encoding", ascii "chunked")] else []) ++
    (match upgrade with
      | some protocol =>
          [(ascii "Connection", ascii "upgrade"), (ascii "Upgrade", protocol)]
      | none => if close then [(ascii "Connection", ascii "close")] else [])

/-- The value of the accumulated forwarding trail. -/
def forwardedForValue : Bytes :=
  (((head.headersNamed buf (ascii "x-forwarded-for")).map fun f => trimOws f.2).filter
    fun v => !v.isEmpty).flatMap (fun v => v ++ ascii ", ") ++ hop.client.display

/-- The fields this hop writes itself, in order. -/
def hopList : List (Bytes × Bytes) :=
  (if (head.headersNamed buf (ascii "host")).isEmpty then
    [(ascii "Host", endpoint.display)] else []) ++
  [(ascii "X-Forwarded-For", forwardedForValue head buf hop),
    (ascii "X-Real-IP", hop.client.display), (ascii "X-Forwarded-Proto", hop.scheme.asBytes)] ++
  (match head.header buf (ascii "host") with
    | some host => [(ascii "X-Forwarded-Host", host)]
    | none => []) ++
  [(ascii "X-Request-Id", requestId head buf fresh)]

/-- Every field of the request head sent upstream. -/
def upstreamFields : List (Bytes × Bytes) :=
  ((head.iter buf).filter fun f => isForwardable head buf f.1) ++
    hopList head buf hop endpoint fresh ++ closingList framing close upgrade

/-- Every field of the response head sent downstream. -/
def downstreamFields : List (Bytes × Bytes) :=
  ((head.iter buf).filter fun f => isRelayed head buf f.1) ++ closingList framing close upgrade

theorem closingFields_eq :
    closingFields framing close upgrade =
      (closingList framing close upgrade).flatMap fun f => field f.1 f.2 := by
  unfold closingFields closingList
  cases upgrade <;> cases close <;> split <;> simp

theorem forwardedFor_eq :
    forwardedFor head buf hop.client =
      field (ascii "X-Forwarded-For") (forwardedForValue head buf hop) := by
  have hname : ascii "X-Forwarded-For: " = ascii "X-Forwarded-For" ++ ascii ": " := by decide
  simp [forwardedFor, forwardedForValue, field, hname]

/-- The upstream request is the written head of its request line and its fields. -/
theorem writeUpstreamRequest_eq {method target : Span} {version : Version}
    (hstart : head.start = .request method target version) :
    writeUpstreamRequest head buf hop endpoint framing close upgrade fresh =
      writtenHead (method.bytes buf ++ 32 :: (target.bytes buf ++ 32 :: ascii "HTTP/1.1"))
        (upstreamFields head buf hop endpoint framing close upgrade fresh) := by
  have hversion : ascii " HTTP/1.1" = 32 :: ascii "HTTP/1.1" := by decide
  simp only [writeUpstreamRequest, hstart, writtenHead, upstreamFields, hopList,
    closingFields_eq, forwardedFor_eq, hversion]
  by_cases hseen : (head.headersNamed buf (ascii "host")).isEmpty = true <;>
    cases head.header buf (ascii "host") <;>
    simp [hseen]

theorem writeDownstreamResponse_eq (reasonOf : Nat → Bytes) {code : Nat} {reason : Span}
    {version : Version} (hstart : head.start = .status code reason version) :
    writeDownstreamResponse reasonOf head buf framing close upgrade =
      writtenHead (ascii "HTTP/1.1" ++ 32 :: (decimal code ++ 32 ::
          (if reason.isEmpty then reasonOf code else reason.bytes buf)))
        (downstreamFields head buf framing close upgrade) := by
  have hversion : ascii "HTTP/1.1 " = ascii "HTTP/1.1" ++ [32] := by decide
  simp only [writeDownstreamResponse, hstart, writtenHead, downstreamFields, closingFields_eq,
    hversion, List.flatMap_append, List.append_assoc, List.cons_append, List.nil_append]

end Request

end Ramjet.Engine.RewrittenFields
