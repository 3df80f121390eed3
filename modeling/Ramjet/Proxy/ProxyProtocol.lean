/- digest: The PROXY protocol header, in both versions, read off a stream that arrives in pieces. -/

import Ramjet.Base.Incremental
import Ramjet.Base.Net
import Ramjet.Base.Text

set_option autoImplicit false
set_option relaxedAutoImplicit false

namespace Ramjet.Proxy.ProxyProtocol

open Ramjet.Base.Octets
open Ramjet.Base.Net
open Ramjet.Base.Text
open Ramjet.Base.Incremental

section Parser

def V1_SIGNATURE : Bytes := ascii "PROXY "

/-- The longest a v1 line may be, its CRLF included. -/
def V1_MAX_LEN : Nat := 107

def V2_SIGNATURE : Bytes :=
  [0x0D, 0x0A, 0x0D, 0x0A, 0x00, 0x0D, 0x0A, 0x51, 0x55, 0x49, 0x54, 0x0A]

/-- Signature, version and command, family and protocol, and the 16-bit length. -/
def V2_PREAMBLE_LEN : Nat := 16

def V2_INET_LEN : Nat := 12

def V2_INET6_LEN : Nat := 36

/-- The most a valid header can occupy: the v2 preamble and its widest length. -/
def MAX_HEADER_LEN : Nat := V2_PREAMBLE_LEN + U16_MAX

/-- How far a parse got. A header that names nobody is complete all the same. -/
inductive Parsed where
  | incomplete
  | done (consumed : Nat) (client : Option SocketAddr)
  deriving DecidableEq

/-- Why bytes are not a PROXY header. -/
inductive HeaderError where
  | signature
  | malformed (why : String)
  deriving DecidableEq

/-- Whether a signature is there in full, as far as the input goes. -/
def signatureMatches : Bytes → Bytes → Except HeaderError Bool
  | _, [] => .ok true
  | [], _ :: _ => .ok false
  | byte :: input, expected :: signature =>
      if byte = expected then signatureMatches input signature else .error .signature

/-- A decimal port: digits only, and no sign. -/
def port (field : Bytes) : Except HeaderError UInt16 :=
  if field.isEmpty || !field.all isAsciiDigit then
    .error (.malformed "a v1 port is not a decimal number")
  else
    match parseUnsigned U16_MAX field with
    | some n => .ok (UInt16.ofNat n)
    | none => .error (.malformed "a v1 port is outside 0-65535")

/-- The client a v1 line names. -/
def lineClient (family source destination : Bytes) (sourcePort : UInt16) :
    Except HeaderError SocketAddr :=
  if family = ascii "TCP4" then
    match parseIpv4 source, parseIpv4 destination with
    | some octets, some _ => .ok ⟨.v4 octets, sourcePort, 0⟩
    | _, _ => .error (.malformed "a TCP4 line names a non-IPv4 address")
  else if family = ascii "TCP6" then
    match parseIpv6 source, parseIpv6 destination with
    | some segments, some _ => .ok ⟨.v6 segments, sourcePort, 0⟩
    | _, _ => .error (.malformed "a TCP6 line names a non-IPv6 address")
  else .error (.malformed "a v1 line names a protocol other than TCP4, TCP6 or UNKNOWN")

/-- The fields of a v1 line, behind its signature and before its CRLF. -/
def lineFields (fields : Bytes) : Except HeaderError (Option SocketAddr) :=
  if !validUtf8 fields then .error (.malformed "a v1 line is not ASCII")
  else if fields = ascii "UNKNOWN" || (ascii "UNKNOWN ").isPrefixOf fields then .ok none
  else
    match fields.splitOn 32 with
    | [family, source, destination, sourcePort, destinationPort] => do
        let sourcePort ← port sourcePort
        let _ ← port destinationPort
        let client ← lineClient family source destination sourcePort
        return some client
    | _ :: _ :: _ :: _ :: _ :: _ :: _ => .error (.malformed "a v1 line has trailing fields")
    | _ => .error (.malformed "a v1 line is missing fields")

/-- The text form: a line of at most 107 bytes, its CR the only one. -/
def parseV1 (input : Bytes) : Except HeaderError Parsed :=
  match signatureMatches input V1_SIGNATURE with
  | .error e => .error e
  | .ok false => .ok .incomplete
  | .ok true =>
      let searchable := min input.length (V1_MAX_LEN - 1)
      match (input.take searchable).idxOf? 13 with
      | none =>
          if searchable = V1_MAX_LEN - 1 then
            .error (.malformed "a v1 line reached its 107-byte limit without a CRLF")
          else .ok .incomplete
      | some cr =>
          match input[cr + 1]? with
          | none => .ok .incomplete
          | some byte =>
              if byte ≠ 10 then .error (.malformed "a v1 line contains a bare CR")
              else
                match lineFields ((input.take cr).drop V1_SIGNATURE.length) with
                | .error e => .error e
                | .ok client => .ok (.done (cr + 2) client)

theorem size_four (a b c d : UInt8) : #[a, b, c, d].size = 4 := rfl

/-- The source address of a v2 address block, told by the family in the high nibble. -/
def proxiedAddress (familyProtocol : UInt8) (body : Bytes) :
    Except HeaderError (Option SocketAddr) :=
  match familyProtocol.toNat / 16 with
  | 0 => .ok none
  | 1 =>
      match body with
      | a :: b :: c :: d :: _ :: _ :: _ :: _ :: high :: low :: _ :: _ :: _ =>
          .ok (some ⟨.v4 ⟨#[a, b, c, d], size_four a b c d⟩, pairOf high low, 0⟩)
      | _ => .error (.malformed "a v2 INET header is shorter than its 12-byte address block")
  | 2 =>
      if body.length < V2_INET6_LEN then
        .error (.malformed "a v2 INET6 header is shorter than its 36-byte address block")
      else
        .ok (some ⟨.v6 (Vector.ofFn fun i => pairOf (body.getD (2 * i) 0) (body.getD (2 * i + 1) 0)),
          pairOf (body.getD 32 0) (body.getD 33 0), 0⟩)
  | 3 => .ok none
  | _ => .error (.malformed "a v2 header declares an unknown address family")

/-- The binary form: a 16-byte preamble, an address block, and what else its length covers. -/
def parseV2 (input : Bytes) : Except HeaderError Parsed :=
  match signatureMatches input V2_SIGNATURE with
  | .error e => .error e
  | .ok false => .ok .incomplete
  | .ok true =>
      match input[12]? with
      | none => .ok .incomplete
      | some versionCommand =>
          if versionCommand.toNat / 16 ≠ 2 then
            .error (.malformed "a v2 header declares a version other than 2")
          else if 1 < versionCommand.toNat % 16 then
            .error (.malformed "a v2 header declares a command other than LOCAL or PROXY")
          else
            match input[13]?, input[14]?, input[15]? with
            | some familyProtocol, some high, some low =>
                let consumed := V2_PREAMBLE_LEN + (high.toNat * 256 + low.toNat)
                if input.length < consumed then .ok .incomplete
                else
                  let body := (input.take consumed).drop V2_PREAMBLE_LEN
                  let client :=
                    if versionCommand.toNat % 16 = 1 then proxiedAddress familyProtocol body
                    else .ok none
                  match client with
                  | .error e => .error e
                  | .ok client => .ok (.done consumed client)
            | _, _, _ => .ok .incomplete

/-- A PROXY header at the front of a stream, told apart by its first byte. -/
def parse (input : Bytes) : Except HeaderError Parsed :=
  match input.head? with
  | none => .ok .incomplete
  | some first =>
      if first = 0x0D then parseV2 input
      else if first = 0x50 then parseV1 input
      else .error .signature

end Parser

section Reading

/-- Why a header could not be read off a stream. -/
inductive AcceptError where
  | io
  | eof
  | header (e : HeaderError)
  deriving DecidableEq

/-- What one read gives: bytes, none at the end of the stream, or a failure. -/
inductive Arrived where
  | bytes (piece : Bytes)
  | failed
  deriving DecidableEq

/-- Read until the header is complete: the client, the bytes behind the header that came with it,
and the reads still to come. -/
def readHeader (buffer : Bytes) :
    List Arrived → Except AcceptError (Option SocketAddr × Bytes × List Arrived)
  | [] =>
      match parse buffer with
      | .error e => .error (.header e)
      | .ok (.done consumed client) => .ok (client, buffer.drop consumed, [])
      | .ok .incomplete => .error .eof
  | arrived :: arrivals =>
      match parse buffer with
      | .error e => .error (.header e)
      | .ok (.done consumed client) => .ok (client, buffer.drop consumed, arrived :: arrivals)
      | .ok .incomplete =>
          match arrived with
          | .failed => .error .io
          | .bytes piece =>
              if piece.isEmpty then .error .eof else readHeader (buffer ++ piece) arrivals

end Reading

example : parse (ascii "PROXY TCP4 192.0.2.10 10.0.0.1 56324 443\r\nGET /") =
    .ok (.done 42 (some ⟨.v4 ⟨#[192, 0, 2, 10], rfl⟩, 56324, 0⟩)) := by decide +kernel

section Signatures

variable {input signature : Bytes}

theorem signatureMatches_true :
    signatureMatches input signature = .ok true ↔ signature <+: input := by
  fun_induction signatureMatches input signature with
  | case1 => simp
  | case2 => simp
  | case3 byte input signature ih =>
      rw [ih, List.cons_prefix_cons]
      exact ⟨fun h => ⟨rfl, h⟩, And.right⟩
  | case4 byte input expected signature hne =>
      rw [List.cons_prefix_cons]
      exact ⟨nofun, fun h => absurd h.1.symm hne⟩

theorem signatureMatches_false (h : signatureMatches input signature = .ok false) :
    input.length < signature.length := by
  fun_induction signatureMatches input signature with
  | case1 => cases h
  | case2 => exact Nat.succ_pos _
  | case3 byte input signature ih => exact Nat.succ_lt_succ (ih h)
  | case4 => cases h

theorem signatureMatches_error {e : HeaderError}
    (h : signatureMatches input signature = .error e) (more : Bytes) :
    signatureMatches (input ++ more) signature = .error e := by
  fun_induction signatureMatches input signature with
  | case1 => cases h
  | case2 => cases h
  | case3 byte input signature ih =>
      rw [List.cons_append, signatureMatches, if_pos rfl]
      exact ih h
  | case4 byte input expected signature hne =>
      rw [List.cons_append, signatureMatches, if_neg hne]
      exact h

end Signatures

section Lines

/-- The first place of an element cuts a list there. -/
theorem idxOf?_eq_some_append {x : UInt8} {l : Bytes} {i : Nat} :
    l.idxOf? x = some i ↔ ∃ front back, l = front ++ x :: back ∧ x ∉ front ∧ front.length = i := by
  induction l generalizing i with
  | nil => simp
  | cons y rest ih =>
      rw [List.idxOf?_cons]
      by_cases hy : y = x
      · subst hy
        rw [if_pos (beq_self_eq_true y), Option.some.injEq]
        constructor
        · rintro rfl
          exact ⟨[], rest, rfl, List.not_mem_nil, rfl⟩
        · rintro ⟨front, back, hcut, hfree, rfl⟩
          cases front with
          | nil => rfl
          | cons z front =>
              cases hcut
              exact absurd List.mem_cons_self hfree
      · rw [if_neg (by simpa using hy), Option.map_eq_some_iff]
        constructor
        · rintro ⟨j, hj, rfl⟩
          obtain ⟨front, back, rfl, hfree, rfl⟩ := ih.mp hj
          exact ⟨y :: front, back, rfl, by simp [hfree, Ne.symm hy], rfl⟩
        · rintro ⟨front, back, hcut, hfree, rfl⟩
          cases front with
          | nil =>
              cases hcut
              exact absurd rfl hy
          | cons z front =>
              cases hcut
              exact ⟨front.length, ih.mpr ⟨front, back, rfl, fun hx =>
                hfree (List.mem_cons_of_mem _ hx), rfl⟩, rfl⟩

theorem prefix_of_append_cons {x : UInt8} {l front rest : Bytes} (hx : x ∉ l)
    (h : l <+: front ++ x :: rest) : l <+: front := by
  rcases List.prefix_or_prefix_of_prefix h (List.prefix_append front _) with hl | ⟨tail, rfl⟩
  · exact hl
  · rw [List.prefix_append_right_inj] at h
    cases tail with
    | nil =>
        rw [List.append_nil]
    | cons y tail =>
        rw [List.cons_prefix_cons] at h
        exact absurd (List.mem_append_right front (h.1 ▸ List.mem_cons_self)) hx

/-- What a v1 line is once its CR has arrived. -/
def endOfLine (front : Bytes) : Bytes → Except HeaderError Parsed
  | [] => .ok .incomplete
  | byte :: _ =>
      if byte ≠ 10 then .error (.malformed "a v1 line contains a bare CR")
      else
        match lineFields (front.drop V1_SIGNATURE.length) with
        | .error e => .error e
        | .ok client => .ok (.done (front.length + 2) client)

variable {front rest input : Bytes}

theorem parseV1_line (hsig : V1_SIGNATURE <+: front ++ 13 :: rest) (hfree : (13 : UInt8) ∉ front)
    (hlen : front.length + 1 < V1_MAX_LEN) : parseV1 (front ++ 13 :: rest) = endOfLine front rest := by
  have hsearch : front.length + 1 ≤ min (front ++ 13 :: rest).length (V1_MAX_LEN - 1) := by
    rw [List.length_append, List.length_cons]
    omega
  obtain ⟨more, hmore⟩ := Nat.exists_eq_add_of_le hsearch
  have hfound : ((front ++ 13 :: rest).take
      (min (front ++ 13 :: rest).length (V1_MAX_LEN - 1))).idxOf? 13 = some front.length := by
    rw [idxOf?_eq_some_append, hmore]
    refine ⟨front, rest.take more, ?_, hfree, rfl⟩
    rw [List.take_append, List.take_of_length_le (by omega)]
    rw [show front.length + 1 + more - front.length = more + 1 by omega, List.take_succ_cons]
  unfold parseV1
  rw [signatureMatches_true.mpr hsig]
  dsimp only
  rw [hfound]
  dsimp only
  rw [List.getElem?_append_right (by omega), List.take_append_of_le_length (Nat.le_refl _),
    List.take_length, show front.length + 1 - front.length = 0 + 1 by omega, List.getElem?_cons_succ]
  cases rest with
  | nil => rfl
  | cons byte rest => rfl

theorem parseV1_long (hsig : V1_SIGNATURE <+: input) (hfree : (13 : UInt8) ∉ input.take (V1_MAX_LEN - 1))
    (hlen : V1_MAX_LEN - 1 ≤ input.length) :
    parseV1 input = .error (.malformed "a v1 line reached its 107-byte limit without a CRLF") := by
  unfold parseV1
  rw [signatureMatches_true.mpr hsig]
  dsimp only
  rw [Nat.min_eq_right hlen, List.idxOf?_eq_none_iff.mpr hfree]
  dsimp only
  rw [if_pos rfl]

theorem parseV1_short (hsig : V1_SIGNATURE <+: input) (hfree : (13 : UInt8) ∉ input)
    (hlen : input.length < V1_MAX_LEN - 1) : parseV1 input = .ok .incomplete := by
  unfold parseV1
  rw [signatureMatches_true.mpr hsig]
  dsimp only
  rw [Nat.min_eq_left (Nat.le_of_lt hlen), List.take_length, List.idxOf?_eq_none_iff.mpr hfree]
  dsimp only
  rw [if_neg (Nat.ne_of_lt hlen)]

/-- A line whose signature is there has its CR in time, or is too long, or is still short. -/
theorem line_cases (input : Bytes) :
    (∃ front rest, input = front ++ 13 :: rest ∧ (13 : UInt8) ∉ front ∧
      front.length + 1 < V1_MAX_LEN) ∨
    ((13 : UInt8) ∉ input.take (V1_MAX_LEN - 1) ∧ V1_MAX_LEN - 1 ≤ input.length) ∨
    ((13 : UInt8) ∉ input ∧ input.length < V1_MAX_LEN - 1) := by
  have hlimit : V1_MAX_LEN = 107 := rfl
  cases hfound : (input.take (V1_MAX_LEN - 1)).idxOf? 13 with
  | some cr =>
      obtain ⟨front, back, hcut, hfree, -⟩ := idxOf?_eq_some_append.mp hfound
      refine .inl ⟨front, back ++ input.drop (V1_MAX_LEN - 1), ?_, hfree, ?_⟩
      · rw [← List.cons_append, ← List.append_assoc, ← hcut, List.take_append_drop]
      · have hlen := congrArg List.length hcut
        rw [List.length_append, List.length_cons, List.length_take] at hlen
        omega
  | none =>
      rw [List.idxOf?_eq_none_iff] at hfound
      by_cases hlen : V1_MAX_LEN - 1 ≤ input.length
      · exact .inr (.inl ⟨hfound, hlen⟩)
      · rw [List.take_of_length_le (by omega)] at hfound
        exact .inr (.inr ⟨hfound, by omega⟩)

/-- A v1 line that is decided on stays so, and one that is not is short of its limit. -/
theorem parseV1_settled {p : Except HeaderError Parsed} (h : parseV1 input = p)
    (hp : p ≠ .ok .incomplete) (more : Bytes) : parseV1 (input ++ more) = p := by
  cases hsig : signatureMatches input V1_SIGNATURE with
  | error e =>
      unfold parseV1 at h ⊢
      rw [hsig] at h
      rw [signatureMatches_error hsig]
      exact h
  | ok whole =>
      cases whole with
      | false =>
          unfold parseV1 at h
          rw [hsig] at h
          exact absurd h.symm hp
      | true =>
          have hpre := signatureMatches_true.mp hsig
          have hpre' : V1_SIGNATURE <+: input ++ more := hpre.trans (List.prefix_append _ _)
          rcases line_cases input with ⟨front, rest, rfl, hfree, hlen⟩ | ⟨hfree, hlen⟩ | ⟨hfree, hlen⟩
          · rw [parseV1_line hpre hfree hlen] at h
            rw [List.append_assoc, List.cons_append] at hpre' ⊢
            rw [parseV1_line hpre' hfree hlen]
            cases rest with
            | nil => exact absurd h.symm hp
            | cons byte rest => exact h
          · rw [parseV1_long hpre hfree hlen] at h
            rw [parseV1_long hpre' (by rwa [List.take_append_of_le_length hlen])
              (by rw [List.length_append]; omega)]
            exact h
          · rw [parseV1_short hpre hfree hlen] at h
            exact absurd h.symm hp

theorem parseV1_incomplete (h : parseV1 input = .ok .incomplete) : input.length < V1_MAX_LEN := by
  have hlimit : V1_MAX_LEN = 107 := rfl
  have hsignature : V1_SIGNATURE.length = 6 := rfl
  cases hsig : signatureMatches input V1_SIGNATURE with
  | error e =>
      unfold parseV1 at h
      rw [hsig] at h
      cases h
  | ok whole =>
      cases whole with
      | false =>
          have hlen := signatureMatches_false hsig
          omega
      | true =>
          have hpre := signatureMatches_true.mp hsig
          rcases line_cases input with ⟨front, rest, rfl, hfree, hlen⟩ | ⟨hfree, hlen⟩ | ⟨hfree, hlen⟩
          · rw [parseV1_line hpre hfree hlen] at h
            cases rest with
            | nil =>
                rw [List.length_append]
                exact hlen
            | cons byte rest =>
                simp only [endOfLine] at h
                split at h
                · cases h
                · split at h <;> cases h
          · rw [parseV1_long hpre hfree hlen] at h
            cases h
          · omega

/-- What a v1 line that is complete looks like. -/
theorem parseV1_done {consumed : Nat} {client : Option SocketAddr}
    (h : parseV1 input = .ok (.done consumed client)) :
    ∃ line rest, input = V1_SIGNATURE ++ line ++ crlf ++ rest ∧ (13 : UInt8) ∉ line ∧
      consumed = (V1_SIGNATURE ++ line ++ crlf).length ∧ consumed ≤ V1_MAX_LEN := by
  cases hsig : signatureMatches input V1_SIGNATURE with
  | error e =>
      unfold parseV1 at h
      rw [hsig] at h
      cases h
  | ok whole =>
      cases whole with
      | false =>
          unfold parseV1 at h
          rw [hsig] at h
          cases h
      | true =>
          have hpre := signatureMatches_true.mp hsig
          rcases line_cases input with ⟨front, rest, rfl, hfree, hlen⟩ | ⟨hfree, hlen⟩ | ⟨hfree, hlen⟩
          · rw [parseV1_line hpre hfree hlen] at h
            obtain ⟨line, rfl⟩ := prefix_of_append_cons (x := 13) (by decide) hpre
            cases rest with
            | nil => cases h
            | cons byte rest =>
                simp only [endOfLine] at h
                split at h
                · cases h
                · rename_i hbyte
                  have hlf : byte = 10 := by simpa using hbyte
                  split at h
                  · cases h
                  · cases h
                    refine ⟨line, rest, ?_, fun hx => hfree (List.mem_append_right _ hx), ?_, by omega⟩
                    · rw [hlf, List.append_assoc _ crlf _]
                      rfl
                    · rw [@List.length_append _ _ crlf]
                      rfl
          · rw [parseV1_long hpre hfree hlen] at h
            cases h
          · rw [parseV1_short hpre hfree hlen] at h
            cases h

end Lines

section Binary

/-- What a v2 header is behind its signature. -/
def behindSignature : Bytes → Except HeaderError Parsed
  | [] => .ok .incomplete
  | versionCommand :: rest =>
      if versionCommand.toNat / 16 ≠ 2 then
        .error (.malformed "a v2 header declares a version other than 2")
      else if 1 < versionCommand.toNat % 16 then
        .error (.malformed "a v2 header declares a command other than LOCAL or PROXY")
      else
        match rest with
        | familyProtocol :: high :: low :: body =>
            if body.length < high.toNat * 256 + low.toNat then .ok .incomplete
            else
              let client :=
                if versionCommand.toNat % 16 = 1 then
                  proxiedAddress familyProtocol (body.take (high.toNat * 256 + low.toNat))
                else .ok none
              match client with
              | .error e => .error e
              | .ok client =>
                  .ok (.done (V2_PREAMBLE_LEN + (high.toNat * 256 + low.toNat)) client)
        | _ => .ok .incomplete

theorem parseV2_behind (rest : Bytes) :
    parseV2 (V2_SIGNATURE ++ rest) = behindSignature rest := by
  unfold parseV2
  rw [signatureMatches_true.mpr (List.prefix_append V2_SIGNATURE rest)]
  dsimp only
  have hat : ∀ i, (V2_SIGNATURE ++ rest)[12 + i]? = rest[i]? := fun i => by
    rw [List.getElem?_append_right (by show 12 ≤ 12 + i; omega)]
    congr 1
    show 12 + i - 12 = i
    omega
  rw [hat 0, hat 1, hat 2, hat 3]
  match rest with
  | [] => rfl
  | [versionCommand] => rfl
  | [versionCommand, familyProtocol] => rfl
  | [versionCommand, familyProtocol, high] => rfl
  | versionCommand :: familyProtocol :: high :: low :: body =>
      simp only [List.getElem?_cons_zero, List.getElem?_cons_succ, behindSignature]
      have hlen : (V2_SIGNATURE ++ versionCommand :: familyProtocol :: high :: low :: body).length =
          V2_PREAMBLE_LEN + body.length := by
        simp only [List.length_append, List.length_cons]
        show 12 + (body.length + 1 + 1 + 1 + 1) = 16 + body.length
        omega
      have hbody : ((V2_SIGNATURE ++ versionCommand :: familyProtocol :: high :: low :: body).take
          (V2_PREAMBLE_LEN + (high.toNat * 256 + low.toNat))).drop V2_PREAMBLE_LEN =
          body.take (high.toNat * 256 + low.toNat) := by
        rw [List.drop_take, Nat.add_sub_cancel_left]
        rfl
      rw [hlen, hbody]
      simp only [Nat.add_lt_add_iff_left]

variable {input rest : Bytes}

theorem behindSignature_settled {p : Except HeaderError Parsed} (h : behindSignature rest = p)
    (hp : p ≠ .ok .incomplete) (more : Bytes) : behindSignature (rest ++ more) = p := by
  match rest with
  | [] => exact absurd h.symm hp
  | versionCommand :: rest =>
      simp only [List.cons_append, behindSignature] at h ⊢
      split
      · rename_i hversion
        rwa [if_pos hversion] at h
      · rename_i hversion
        rw [if_neg hversion] at h
        split
        · rename_i hcommand
          rwa [if_pos hcommand] at h
        · rename_i hcommand
          rw [if_neg hcommand] at h
          match rest with
          | familyProtocol :: high :: low :: body =>
              simp only [List.cons_append] at h ⊢
              by_cases hshort : body.length < high.toNat * 256 + low.toNat
              · rw [if_pos hshort] at h
                exact absurd h.symm hp
              · rw [if_neg hshort] at h
                rw [if_neg (by rw [List.length_append]; omega),
                  List.take_append_of_le_length (by omega)]
                exact h
          | [] => exact absurd h.symm hp
          | [familyProtocol] => exact absurd h.symm hp
          | [familyProtocol, high] => exact absurd h.symm hp

theorem behindSignature_incomplete (h : behindSignature rest = .ok .incomplete) :
    rest.length < 4 + U16_MAX := by
  match rest with
  | [] => exact Nat.succ_pos _
  | versionCommand :: rest =>
      simp only [behindSignature] at h
      split at h
      · cases h
      · split at h
        · cases h
        · match rest with
          | familyProtocol :: high :: low :: body =>
              simp only at h
              split at h
              · rename_i hshort
                have hhigh := high.toNat_lt
                have hlow := low.toNat_lt
                simp only [List.length_cons, U16_MAX]
                omega
              · split at h <;> cases h
          | [] | [_] | [_, _] =>
              simp only [List.length_cons, List.length_nil, U16_MAX]
              omega

theorem behindSignature_done {consumed : Nat} {client : Option SocketAddr}
    (h : behindSignature rest = .ok (.done consumed client)) :
    ∃ versionCommand familyProtocol high low body more,
      rest = versionCommand :: familyProtocol :: high :: low :: (body ++ more) ∧
        body.length = high.toNat * 256 + low.toNat ∧ consumed = V2_PREAMBLE_LEN + body.length := by
  match rest with
  | [] => cases h
  | versionCommand :: rest =>
      simp only [behindSignature] at h
      split at h
      · cases h
      · split at h
        · cases h
        · match rest with
          | familyProtocol :: high :: low :: body =>
              simp only at h
              split at h
              · cases h
              · rename_i hlong
                have hlen : (body.take (high.toNat * 256 + low.toNat)).length =
                    high.toNat * 256 + low.toNat := by
                  rw [List.length_take]
                  omega
                split at h
                · cases h
                · cases h
                  exact ⟨versionCommand, familyProtocol, high, low, body.take _, body.drop _,
                    by rw [List.take_append_drop], hlen, by rw [hlen]⟩
          | [] => cases h
          | [_] => cases h
          | [_, _] => cases h

end Binary

section Headers

/-- A whole PROXY header, and nothing behind it: a line with its CRLF, or a preamble and as many
bytes as it announces. -/
inductive IsHeader : Bytes → Prop
  | text (line : Bytes) (hline : (13 : UInt8) ∉ line)
      (hlen : (V1_SIGNATURE ++ line ++ crlf).length ≤ V1_MAX_LEN) :
      IsHeader (V1_SIGNATURE ++ line ++ crlf)
  | binary (versionCommand familyProtocol high low : UInt8) (body : Bytes)
      (hlen : body.length = high.toNat * 256 + low.toNat) :
      IsHeader (V2_SIGNATURE ++ versionCommand :: familyProtocol :: high :: low :: body)

variable {input : Bytes} {p : Except HeaderError Parsed} {consumed : Nat}
  {client : Option SocketAddr}

/-- A v2 input either breaks its signature, or is short of it, or goes on behind it. -/
theorem parseV2_cases (input : Bytes) :
    (∃ e, ∀ more, parseV2 (input ++ more) = .error e) ∨
    (parseV2 input = .ok .incomplete ∧ input.length < V2_SIGNATURE.length) ∨
    ∃ rest, input = V2_SIGNATURE ++ rest := by
  cases hsig : signatureMatches input V2_SIGNATURE with
  | error e =>
      refine .inl ⟨e, fun more => ?_⟩
      unfold parseV2
      rw [signatureMatches_error hsig]
  | ok whole =>
      cases whole with
      | false =>
          refine .inr (.inl ⟨?_, signatureMatches_false hsig⟩)
          unfold parseV2
          rw [hsig]
      | true =>
          obtain ⟨rest, hrest⟩ := signatureMatches_true.mp hsig
          exact .inr (.inr ⟨rest, hrest.symm⟩)

/-- What is decided on some bytes is decided on whatever follows them. -/
theorem parse_settled (h : parse input = p) (hp : p ≠ .ok .incomplete) (more : Bytes) :
    parse (input ++ more) = p := by
  cases input with
  | nil => exact absurd h.symm hp
  | cons first rest =>
      simp only [parse, List.cons_append, List.head?_cons] at h ⊢
      split
      · rename_i hfirst
        rw [if_pos hfirst] at h
        rcases parseV2_cases (first :: rest) with ⟨e, he⟩ | ⟨hshort, -⟩ | ⟨behind, hbehind⟩
        · have hnone := he []
          rw [List.append_nil] at hnone
          rw [← h, hnone]
          exact he more
        · rw [hshort] at h
          exact absurd h.symm hp
        · rw [hbehind, parseV2_behind] at h
          rw [← List.cons_append, hbehind, List.append_assoc, parseV2_behind]
          exact behindSignature_settled h hp more
      · rename_i hfirst
        rw [if_neg hfirst] at h
        split
        · rename_i hsecond
          rw [if_pos hsecond] at h
          exact parseV1_settled h hp more
        · rename_i hsecond
          rwa [if_neg hsecond] at h

theorem parse_incomplete (h : parse input = .ok .incomplete) : input.length < MAX_HEADER_LEN := by
  have hmax : MAX_HEADER_LEN = 65551 := rfl
  cases input with
  | nil => exact Nat.succ_pos _
  | cons first rest =>
      simp only [parse, List.head?_cons] at h
      split at h
      · rcases parseV2_cases (first :: rest) with ⟨e, he⟩ | ⟨-, hshort⟩ | ⟨behind, hbehind⟩
        · have hnone := he []
          rw [List.append_nil, h] at hnone
          cases hnone
        · have hlen : V2_SIGNATURE.length = 12 := rfl
          omega
        · rw [hbehind, parseV2_behind] at h
          have hlen := behindSignature_incomplete h
          rw [hbehind, List.length_append]
          have hsignature : V2_SIGNATURE.length = 12 := rfl
          have hwidest : U16_MAX = 65535 := rfl
          omega
      · split at h
        · have hlen := parseV1_incomplete h
          have hlimit : V1_MAX_LEN = 107 := rfl
          omega
        · cases h

/-- A complete header is the bytes it says it consumed. -/
theorem parse_done (h : parse input = .ok (.done consumed client)) :
    ∃ header rest, input = header ++ rest ∧ IsHeader header ∧ header.length = consumed := by
  cases input with
  | nil => cases h
  | cons first rest =>
      simp only [parse, List.head?_cons] at h
      split at h
      · rcases parseV2_cases (first :: rest) with ⟨e, he⟩ | ⟨hshort, -⟩ | ⟨behind, hbehind⟩
        · have hnone := he []
          rw [List.append_nil, h] at hnone
          cases hnone
        · rw [hshort] at h
          cases h
        · rw [hbehind, parseV2_behind] at h
          obtain ⟨versionCommand, familyProtocol, high, low, body, more, rfl, hlen, hconsumed⟩ :=
            behindSignature_done h
          refine ⟨_, more, ?_, .binary versionCommand familyProtocol high low body hlen, ?_⟩
          · rw [hbehind, List.append_assoc]
            rfl
          · rw [hconsumed, List.length_append]
            simp only [List.length_cons]
            show 12 + (body.length + 1 + 1 + 1 + 1) = 16 + body.length
            omega
      · split at h
        · obtain ⟨line, more, hinput, hline, hconsumed, hlen⟩ := parseV1_done h
          exact ⟨_, more, hinput, .text line hline (hconsumed ▸ hlen), hconsumed.symm⟩
        · cases h

/-- Of two headers on one stream neither goes on behind the other. -/
theorem IsHeader.unique {header header' rest rest' : Bytes} (h : IsHeader header)
    (h' : IsHeader header') (hsame : header ++ rest = header' ++ rest') : header = header' := by
  cases h with
  | text line hline =>
      cases h' with
      | text line' hline' =>
          simp only [List.append_assoc, List.append_cancel_left_eq] at hsame
          have hcut : line = line' := by
            have hfirst := (idxOf?_eq_some_append (x := 13)).mpr ⟨line, 10 :: rest, rfl, hline, rfl⟩
            have hfirst' := (idxOf?_eq_some_append (x := 13)).mpr
              ⟨line', 10 :: rest', rfl, hline', rfl⟩
            have hsame' : line ++ 13 :: 10 :: rest = line' ++ 13 :: 10 :: rest' := hsame
            rw [hsame', hfirst'] at hfirst
            exact (List.append_inj hsame (Option.some.inj hfirst).symm).1
          rw [hcut]
      | binary => cases hsame
  | binary versionCommand familyProtocol high low body hlen =>
      cases h' with
      | text => cases hsame
      | binary versionCommand' familyProtocol' high' low' body' hlen' =>
          simp only [List.append_assoc, List.cons_append, List.append_cancel_left_eq,
            List.cons.injEq] at hsame
          obtain ⟨rfl, rfl, rfl, rfl, hbody⟩ := hsame
          rw [(List.append_inj hbody (hlen.trans hlen'.symm)).1]

end Headers

section Streams

/-- What a parse has decided, absent while the header is incomplete. -/
def verdict (input : Bytes) : Option (Except HeaderError (Nat × Option SocketAddr)) :=
  match parse input with
  | .ok .incomplete => none
  | .ok (.done consumed client) => some (.ok (consumed, client))
  | .error e => some (.error e)

theorem verdict_settled : Settled verdict := by
  intro seen more decided h
  unfold verdict at h ⊢
  cases hparse : parse seen with
  | error e =>
      rw [hparse] at h
      rw [parse_settled hparse nofun]
      exact h
  | ok parsed =>
      cases parsed with
      | incomplete =>
          rw [hparse] at h
          cases h
      | done consumed client =>
          rw [hparse] at h
          rw [parse_settled hparse nofun]
          exact h

/-- A stream whose reads all bring something, as the reads of it. -/
def arriving (pieces : List Bytes) : List Arrived := pieces.map .bytes

/-- What became of a stream read until its header was decided. -/
def accepted :
    Option (Except HeaderError (Nat × Option SocketAddr) × Bytes × List Bytes) →
      Except AcceptError (Option SocketAddr × Bytes × List Arrived)
  | some (.ok (consumed, client), read, unread) => .ok (client, read.drop consumed, arriving unread)
  | some (.error e, _, _) => .error (.header e)
  | none => .error .eof

/-- Reading a header off a stream is reading on until it is decided. -/
theorem readHeader_arriving (pieces : List Bytes) (hpieces : ∀ piece ∈ pieces, piece ≠ [])
    (buffer : Bytes) :
    readHeader buffer (arriving pieces) = accepted (readOn verdict buffer pieces) := by
  induction pieces generalizing buffer with
  | nil =>
      simp only [arriving, List.map_nil, readHeader, readOn, verdict]
      cases parse buffer with
      | error e => rfl
      | ok parsed =>
          cases parsed with
          | incomplete => rfl
          | done consumed client => rfl
  | cons piece pieces ih =>
      have hpiece : piece.isEmpty = false := by
        cases piece with
        | nil => exact absurd rfl (hpieces [] List.mem_cons_self)
        | cons b rest => rfl
      have hrest := ih (fun p hp => hpieces p (List.mem_cons_of_mem _ hp)) (buffer ++ piece)
      simp only [arriving, List.map_cons, readHeader, readOn, verdict] at hrest ⊢
      cases parse buffer with
      | error e => rfl
      | ok parsed =>
          cases parsed with
          | incomplete =>
              simp only [hpiece, Bool.false_eq_true, if_false]
              exact hrest
          | done consumed client => rfl

/-- A header is read whole however it was split, and what follows it is left whole. -/
theorem readHeader_done {pieces : List Bytes} (hpieces : ∀ piece ∈ pieces, piece ≠ [])
    {consumed : Nat} {client : Option SocketAddr}
    (h : parse pieces.flatten = .ok (.done consumed client)) :
    ∃ leftover unread, readHeader [] (arriving pieces) = .ok (client, leftover, arriving unread) ∧
      leftover ++ unread.flatten = pieces.flatten.drop consumed := by
  have hdecided := readOn_decision verdict_settled [] pieces
  rw [List.nil_append, show verdict pieces.flatten = some (.ok (consumed, client)) by
    unfold verdict; rw [h], Option.map_eq_some_iff] at hdecided
  obtain ⟨⟨decided, read, unread⟩, hread, rfl⟩ := hdecided
  obtain ⟨hstream, hverdict⟩ := readOn_stream hread
  rw [List.nil_append] at hstream
  refine ⟨read.drop consumed, unread, ?_, ?_⟩
  · rw [readHeader_arriving pieces hpieces, hread]
    rfl
  · have hle : consumed ≤ read.length := by
      have hparse : parse read = .ok (.done consumed client) := by
        unfold verdict at hverdict
        split at hverdict
        · cases hverdict
        · rename_i heq
          cases hverdict
          exact heq
        · cases hverdict
      obtain ⟨header, rest, rfl, -, rfl⟩ := parse_done hparse
      rw [List.length_append]
      exact Nat.le_add_right _ _
    rw [← hstream, List.drop_append_of_le_length hle]

theorem readHeader_error {pieces : List Bytes} (hpieces : ∀ piece ∈ pieces, piece ≠ [])
    {e : HeaderError} (h : parse pieces.flatten = .error e) :
    readHeader [] (arriving pieces) = .error (.header e) := by
  have hdecided := readOn_decision verdict_settled [] pieces
  rw [List.nil_append, show verdict pieces.flatten = some (.error e) by unfold verdict; rw [h],
    Option.map_eq_some_iff] at hdecided
  obtain ⟨⟨decided, read, unread⟩, hread, rfl⟩ := hdecided
  rw [readHeader_arriving pieces hpieces, hread]
  rfl

theorem readHeader_incomplete {pieces : List Bytes} (hpieces : ∀ piece ∈ pieces, piece ≠ [])
    (h : parse pieces.flatten = .ok .incomplete) :
    readHeader [] (arriving pieces) = .error .eof := by
  have hdecided := readOn_decision verdict_settled [] pieces
  rw [List.nil_append, show verdict pieces.flatten = none by unfold verdict; rw [h],
    Option.map_eq_none_iff] at hdecided
  rw [readHeader_arriving pieces hpieces, hdecided]
  rfl

/-- The parser never takes back what it decided on a prefix, decides no sooner than at the end of
the header and no later than its greatest length, and takes the header and nothing else, however
it was split into reads. -/
theorem parse_prefix_monotone (input : Bytes) :
    (∀ p, parse input = p → p ≠ .ok .incomplete → ∀ more, parse (input ++ more) = p) ∧
    (∀ client front, parse input = .ok (.done input.length client) → front <+: input →
      front ≠ input → parse front = .ok .incomplete) ∧
    (parse input = .ok .incomplete → input.length < MAX_HEADER_LEN) ∧
    (∀ consumed client, parse input = .ok (.done consumed client) →
      consumed ≤ input.length ∧ IsHeader (input.take consumed) ∧
        ∀ header, IsHeader header → header <+: input → header.length = consumed) ∧
    ∀ pieces, (∀ piece ∈ pieces, piece ≠ []) → pieces.flatten = input →
      (∀ consumed client, parse input = .ok (.done consumed client) →
        ∃ leftover unread,
          readHeader [] (arriving pieces) = .ok (client, leftover, arriving unread) ∧
            leftover ++ unread.flatten = input.drop consumed) ∧
      (∀ e, parse input = .error e → readHeader [] (arriving pieces) = .error (.header e)) ∧
      (parse input = .ok .incomplete → readHeader [] (arriving pieces) = .error .eof) := by
  refine ⟨fun p h hp more => parse_settled h hp more, ?_, parse_incomplete, ?_, ?_⟩
  · intro client front h hfront hne
    obtain ⟨more, rfl⟩ := hfront
    by_contra hdecided
    have hwhole := parse_settled rfl hdecided more
    rw [h] at hwhole
    obtain ⟨header, rest, rfl, -, hlen⟩ := parse_done hwhole.symm
    rw [List.length_append, List.length_append] at hlen
    have hnil : more = [] := List.length_eq_zero_iff.mp (by omega)
    exact hne (by rw [hnil, List.append_nil])
  · intro consumed client h
    obtain ⟨header, rest, rfl, hheader, rfl⟩ := parse_done h
    refine ⟨by rw [List.length_append]; omega, by rwa [List.take_left], ?_⟩
    rintro header' hheader' ⟨rest', hsame⟩
    rw [hheader'.unique hheader hsame]
  · rintro pieces hpieces rfl
    exact ⟨fun _ _ => readHeader_done hpieces, fun _ => readHeader_error hpieces,
      readHeader_incomplete hpieces⟩

end Streams

end Ramjet.Proxy.ProxyProtocol
