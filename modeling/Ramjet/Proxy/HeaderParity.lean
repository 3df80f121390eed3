/- digest: Where the two engines forward the same header fields, and where they do not. -/

import Ramjet.Proxy.SentFields

set_option autoImplicit false
set_option relaxedAutoImplicit false

namespace Ramjet.Proxy.HeaderParity

open Ramjet.Base.Octets
open Ramjet.Base.Net
open Ramjet.Base.Segments
open Ramjet.Engine.Codec.MessageHead
open Ramjet.Engine.Codec.AcceptedHead
open Ramjet.Engine.Codec.BodyFraming
open Ramjet.Engine.Headers (HexId Hop Scheme connectionLists isForwardable isSelfWritten
  inboundRequestId requestId writeUpstreamRequest)
open Ramjet.Engine.WrittenHead
open Ramjet.Engine.RewrittenFields
open Ramjet.Engine.FramingAgreement
open Ramjet.Proxy.HeaderMap
open Ramjet.Proxy.Headers
open Ramjet.Proxy.Forward
open Ramjet.Proxy.SentFields

section Written

/-- The fields of a written request head, as a parser reads them. -/
def fieldsOf (out : Bytes) : List (Bytes × Bytes) :=
  match parseRequestHead Limits.unlimited out {} with
  | (.ok true, head) => head.iter out
  | _ => []

variable {head : Head} {buf : Bytes}

/-- The request the uring engine writes is read back as the fields it put in. -/
theorem fieldsOf_written {lim : Limits} {h0 : Head}
    (hparse : parseRequestHead lim buf h0 = (.ok true, head)) (hop : Hop) (endpoint : SocketAddr)
    (framing : Framing) (close : Bool) (hex : HexId) :
    fieldsOf (writeUpstreamRequest head buf hop endpoint framing close
        (Engine.Headers.upgradeProtocol head buf) hex) =
      readBack (upstreamFields head buf hop endpoint framing close
        (Engine.Headers.upgradeProtocol head buf) hex) := by
  obtain ⟨method, target, version, hstart, hline, hread, hhost⟩ := accepted_request hparse
  obtain ⟨start, hwritten⟩ := parseRequestLine_written hline
  have hclean : ∀ p ∈ Engine.Headers.upgradeProtocol head buf, Clean p := fun p hp =>
    clean_upgradeProtocol hread hp
  obtain ⟨reread, hreparse, -, hiter⟩ := parseRequestHead_written hwritten
    (crlfFree_requestLine hline) (fieldOk_upstreamFields hread hclean hop endpoint framing close hex)
    (upstream_hosts hhost hop endpoint framing close _ hex)
  rw [writeUpstreamRequest_eq head buf hop endpoint framing close _ hex hstart, fieldsOf, hreparse]
  exact hiter

theorem values_congr (fields : List (Bytes × Bytes)) {a b : Bytes} (h : lowerName a = lowerName b) :
    values fields a = values fields b := by
  have hsame : eqIgnoreAsciiCase a b = true := eqIgnoreAsciiCase_iff.mpr h
  have hcongr : ∀ f : Bytes × Bytes, eqIgnoreAsciiCase f.1 a = eqIgnoreAsciiCase f.1 b := by
    intro f
    rw [eqIgnoreAsciiCase_comm, eqIgnoreAsciiCase_congr hsame, eqIgnoreAsciiCase_comm]
  simp only [values, named, hcongr]

private theorem values_append (a b : List (Bytes × Bytes)) (name : Bytes) :
    values (a ++ b) name = values a name ++ values b name := by
  simp [values]

private theorem values_readBack (fields : List (Bytes × Bytes)) (name : Bytes) :
    values (readBack fields) name = (values fields name).map trimOws := by
  rw [values, named_readBack, readBack, List.map_map, values, List.map_map]
  rfl

private theorem isOws_of_address {b : UInt8} (h : isAddressOctet b = true) : isOws b = false :=
  forall_octet (p := fun b => isAddressOctet b = true → isOws b = false) (by decide +kernel) b h

private theorem trimOws_address {v : Bytes} (h : ∀ b ∈ v, isAddressOctet b = true) :
    trimOws v = v :=
  trimOws_eq_self (fun b hb => isOws_of_address (h b (List.mem_of_mem_head? hb)))
    fun b hb => isOws_of_address (h b (List.mem_of_mem_getLast? hb))

private theorem trimOws_display (ip : IpAddr) : trimOws ip.display = ip.display :=
  trimOws_address (IpAddr.display_octets ip)

/-- A trimmed text starts with no white space. -/
private theorem head?_of_trimmed {v : Bytes} (h : trimOws v = v) {b : UInt8}
    (hb : v.head? = some b) : isOws b = false := by
  obtain ⟨rest, rfl⟩ := List.head?_eq_some_iff.mp hb
  by_contra hows
  rw [Bool.not_eq_false] at hows
  have hlength := congrArg List.length h
  rw [trimOws, List.dropWhile_cons_of_pos hows] at hlength
  have hdropped : (rest.dropWhile isOws).length ≤ rest.length := (List.dropWhile_sublist _).length_le
  have hkept : ((rest.dropWhile isOws).rdropWhile isOws).length ≤ (rest.dropWhile isOws).length :=
    (List.rdropWhile_prefix isOws _).length_le
  rw [List.length_cons] at hlength
  omega

private theorem trimOws_requestId (hex : HexId) :
    trimOws (requestId head buf hex) = requestId head buf hex := by
  have hhex : trimOws hex.bytes = hex.bytes := trimOws_address fun b hb => by
    simp [isAddressOctet, List.all_eq_true.mp hex.alphanumeric b hb]
  unfold requestId inboundRequestId
  split
  · exact hhex
  · split
    · exact hhex
    · exact trimOws_idem _

private theorem trimOws_forwardedForValue (hop : Hop) :
    trimOws (forwardedForValue head buf hop) = forwardedForValue head buf hop := by
  have hip := IpAddr.display_octets hop.client
  have hne := IpAddr.display_ne_nil hop.client
  unfold forwardedForValue
  refine trimOws_eq_self (fun b hb => ?_) fun b hb => ?_
  · cases htrail : ((head.headersNamed buf (ascii "x-forwarded-for")).map fun f => trimOws f.2).filter
        fun v => !v.isEmpty with
    | nil =>
        rw [htrail, List.flatMap_nil, List.nil_append] at hb
        exact isOws_of_address (hip b (List.mem_of_mem_head? hb))
    | cons v vs =>
        have hmem : v ∈ ((head.headersNamed buf (ascii "x-forwarded-for")).map
            fun f => trimOws f.2).filter fun v => !v.isEmpty := by
          rw [htrail]
          exact List.mem_cons_self
        obtain ⟨hin, hsome⟩ := List.mem_filter.mp hmem
        obtain ⟨f, -, rfl⟩ := List.mem_map.mp hin
        rw [htrail, List.flatMap_cons, List.append_assoc, List.append_assoc,
          List.head?_append_of_ne_nil _ (by simpa using hsome)] at hb
        exact head?_of_trimmed (trimOws_idem f.2) hb
  · rw [List.getLast?_append_of_ne_nil _ hne] at hb
    exact isOws_of_address (hip b (List.mem_of_mem_getLast? hb))

variable (hop : Hop) (endpoint : SocketAddr) (framing : Framing) (hex : HexId)

private theorem values_upstream (hread : ∀ f ∈ head.iter buf, FieldRead f) (upgrade : Option Bytes)
    (name : Bytes) :
    values (readBack (upstreamFields head buf hop endpoint framing false upgrade hex)) name =
      (if isForwardable head buf name then values (head.iter buf) name else []) ++
        ((values (hopList head buf hop endpoint hex) name).map trimOws ++
          (values (closingList framing false upgrade) name).map trimOws) := by
  have hcopied : values ((head.iter buf).filter fun f => isForwardable head buf f.1) name =
      if isForwardable head buf name then values (head.iter buf) name else [] := by
    rw [values, named_filter _ fun a b h => isForwardable_congr h head buf]
    split <;> rfl
  have htrimmed : (values (head.iter buf) name).map trimOws = values (head.iter buf) name := by
    rw [← values_readBack, readBack_eq_self hread]
  rw [values_readBack, upstreamFields, List.append_assoc, values_append, values_append,
    List.map_append, List.map_append, hcopied]
  congr 1
  split
  · exact htrimmed
  · rfl

private theorem values_hopList : let written := values (hopList head buf hop endpoint hex)
    written X_FORWARDED_FOR = [forwardedForValue head buf hop] ∧
      written X_REAL_IP = [hop.client.display] ∧
      written X_FORWARDED_PROTO = [hop.scheme.asBytes] ∧
      written X_FORWARDED_HOST = (head.header buf HOST).toList ∧
      written X_REQUEST_ID = [requestId head buf hex] ∧
      written CONNECTION = [] ∧ written UPGRADE = [] ∧
      (values (head.iter buf) HOST ≠ [] → written HOST = []) := by
  have hseen : (head.headersNamed buf (ascii "host")).isEmpty = true ↔
      values (head.iter buf) HOST = [] := by
    rw [List.isEmpty_iff, values, List.map_eq_nil_iff]
    rfl
  simp only [hopList, HOST] at hseen ⊢
  cases head.header buf (ascii "host") <;> split <;>
    refine ⟨rfl, rfl, rfl, rfl, rfl, rfl, rfl, fun h => ?_⟩
  · exact absurd (hseen.mp ‹_›) h
  · rfl
  · exact absurd (hseen.mp ‹_›) h
  · rfl

private theorem values_closingList (upgrade : Option Bytes) :
    let written := values (closingList framing false upgrade)
    (∀ name ∈ [X_FORWARDED_FOR, X_REAL_IP, X_FORWARDED_PROTO, X_FORWARDED_HOST, X_REQUEST_ID, HOST],
      written name = []) ∧
      written CONNECTION = upgrade.elim [] (fun _ => [UPGRADE]) ∧
      written UPGRADE = upgrade.toList := by
  simp only [closingList]
  refine ⟨?_, ?_, ?_⟩
  · simp only [List.forall_mem_cons, List.not_mem_nil, false_implies, implies_true, and_true]
    split <;> cases upgrade <;> exact ⟨rfl, rfl, rfl, rfl, rfl, rfl⟩
  · split <;> cases upgrade <;> rfl
  · split <;> cases upgrade <;> rfl

private theorem not_forwardable :
    ∀ name ∈ [X_FORWARDED_FOR, X_REAL_IP, X_FORWARDED_PROTO, X_FORWARDED_HOST, X_REQUEST_ID,
      CONNECTION, UPGRADE], isForwardable head buf name = false := by
  have hconst : ∀ name ∈ [X_FORWARDED_FOR, X_REAL_IP, X_FORWARDED_PROTO, X_FORWARDED_HOST,
      X_REQUEST_ID, CONNECTION, UPGRADE], (!eqIgnoreAsciiCase name (ascii "connection") &&
        !Engine.Headers.isHopByHop name && !isSelfWritten name) = false := by decide
  intro name hname
  rw [isForwardable, hconst name hname, Bool.false_and]

/-- What the uring engine writes under the names it writes itself. -/
theorem values_own (hread : ∀ f ∈ head.iter buf, FieldRead f) (upgrade : Option Bytes)
    (hupgrade : ∀ p ∈ upgrade, trimOws p = p) :
    let written := values (readBack (upstreamFields head buf hop endpoint framing false upgrade hex))
    written X_FORWARDED_FOR = [forwardedForValue head buf hop] ∧
      written X_REAL_IP = [hop.client.display] ∧
      written X_FORWARDED_PROTO = [hop.scheme.asBytes] ∧
      written X_FORWARDED_HOST = (head.header buf HOST).toList ∧
      written X_REQUEST_ID = [requestId head buf hex] ∧
      written CONNECTION = upgrade.elim [] (fun _ => [UPGRADE]) ∧
      written UPGRADE = upgrade.toList := by
  obtain ⟨hfor, hip, hproto, hhost, hid, hconnection, hprotocol, -⟩ :=
    @values_hopList head buf hop endpoint hex
  obtain ⟨hnone, hclosing, hclosingUpgrade⟩ := values_closingList framing upgrade
  have hdropped := @not_forwardable head buf
  simp only [List.forall_mem_cons, List.not_mem_nil, false_implies, implies_true, and_true]
    at hnone hdropped
  obtain ⟨n1, n2, n3, n4, n5, -⟩ := hnone
  obtain ⟨d1, d2, d3, d4, d5, d6, d7⟩ := hdropped
  have hscheme : ∀ scheme : Scheme, trimOws scheme.asBytes = scheme.asBytes := by
    intro scheme
    cases scheme <;> decide
  simp only [values_upstream hop endpoint framing hex hread upgrade]
  refine ⟨?_, ?_, ?_, ?_, ?_, ?_, ?_⟩
  · simp [d1, hfor, n1, trimOws_forwardedForValue]
  · simp [d2, hip, n2, trimOws_display]
  · simp [d3, hproto, n3, hscheme]
  · have htrimmed : (head.header buf HOST).toList.map trimOws = (head.header buf HOST).toList := by
      cases hheld : head.header buf HOST with
      | none => rfl
      | some host =>
          obtain ⟨f, hf, rfl⟩ := header_mem hheld
          rw [Option.toList_some, List.map_singleton, (hread f hf).value_trimmed]
    simp [d4, hhost, n4, htrimmed]
  · simp [d5, hid, n5, trimOws_requestId]
  · have htrim : trimOws UPGRADE = UPGRADE := by decide
    cases upgrade <;> simp [d6, hconnection, hclosing, htrim]
  · cases upgrade with
    | none => simp [d7, hprotocol, hclosingUpgrade]
    | some p => simp [d7, hprotocol, hclosingUpgrade, hupgrade p rfl]

/-- What it writes under the name of the host. -/
theorem values_host (hread : ∀ f ∈ head.iter buf, FieldRead f) (upgrade : Option Bytes)
    (hseen : values (head.iter buf) HOST ≠ []) :
    values (readBack (upstreamFields head buf hop endpoint framing false upgrade hex)) HOST =
      if connectionLists head buf HOST then [] else values (head.iter buf) HOST := by
  have hhop := (@values_hopList head buf hop endpoint hex).2.2.2.2.2.2.2 hseen
  have hclosing := (values_closingList framing upgrade).1 HOST (by simp)
  have hconst : (!eqIgnoreAsciiCase HOST (ascii "connection") &&
      !Engine.Headers.isHopByHop HOST && !isSelfWritten HOST) = true := by decide
  rw [values_upstream hop endpoint framing hex hread upgrade, hhop, hclosing, isForwardable, hconst]
  cases connectionLists head buf HOST <;> simp

private theorem eqIgnoreAsciiCase_false {a name : Bytes} (h : lowerName name ≠ lowerName a) :
    eqIgnoreAsciiCase a name = false := by
  rw [Bool.eq_false_iff]
  intro hsame
  exact h (eqIgnoreAsciiCase_iff.mp hsame).symm

/-- What it writes under any other name. -/
theorem values_copied (hread : ∀ f ∈ head.iter buf, FieldRead f) (upgrade : Option Bytes)
    {name : Bytes} (hself : isSelfWritten name = false)
    (hhost : lowerName name ≠ HOST) (hconnection : lowerName name ≠ CONNECTION)
    (hupgrade : lowerName name ≠ UPGRADE) (hcoding : lowerName name ≠ ascii "transfer-encoding") :
    values (readBack (upstreamFields head buf hop endpoint framing false upgrade hex)) name =
      if isDropped name || connectionLists head buf name then []
      else values (head.iter buf) name := by
  have hown : ∀ h ∈ Engine.Headers.SELF_WRITTEN, lowerName name ≠ h := by
    intro h hh hsame
    have hfound := List.any_eq_false.mp hself h hh
    have hlower : lowerName h = h :=
      (show ∀ h ∈ Engine.Headers.SELF_WRITTEN, lowerName h = h by decide) h hh
    exact hfound (eqIgnoreAsciiCase_iff.mpr (hsame.trans hlower.symm))
  have hhop : values (hopList head buf hop endpoint hex) name = [] := by
    rw [values, named_hopList]
    · rfl
    · intro n hn
      have hlower : lowerName n = HOST ∨ lowerName n ∈ Engine.Headers.SELF_WRITTEN :=
        (show ∀ n ∈ [ascii "Host", ascii "X-Forwarded-For", ascii "X-Real-IP",
          ascii "X-Forwarded-Proto", ascii "X-Forwarded-Host", ascii "X-Request-Id"],
          lowerName n = HOST ∨ lowerName n ∈ Engine.Headers.SELF_WRITTEN by decide) n hn
      refine eqIgnoreAsciiCase_false fun hsame => ?_
      rcases hlower with hlower | hlower
      · exact hhost (hsame.trans hlower)
      · exact hown _ hlower hsame
  have hclosing : values (closingList framing false upgrade) name = [] := by
    have hnames : ∀ f ∈ closingList framing false upgrade,
        f.1 ∈ [ascii "Transfer-Encoding", ascii "Connection", ascii "Upgrade"] := by
      intro f hf
      simp only [closingList, List.mem_append] at hf
      rcases hf with hf | hf
      · split at hf <;> simp_all
      · cases upgrade <;> simp_all
        rcases hf with rfl | rfl <;> simp
    rw [values, named, List.map_eq_nil_iff, List.filter_eq_nil_iff]
    intro f hf
    have hlower : lowerName f.1 ∈ [ascii "transfer-encoding", CONNECTION, UPGRADE] :=
      (show ∀ n ∈ [ascii "Transfer-Encoding", ascii "Connection", ascii "Upgrade"],
        lowerName n ∈ [ascii "transfer-encoding", CONNECTION, UPGRADE] by decide) f.1 (hnames f hf)
    rw [eqIgnoreAsciiCase_false fun hsame => ?_]
    · exact Bool.false_ne_true
    · rw [← hsame] at hlower
      simp only [List.mem_cons, List.not_mem_nil, or_false] at hlower
      rcases hlower with h | h | h
      · exact hcoding h
      · exact hconnection h
      · exact hupgrade h
  rw [values_upstream hop endpoint framing hex hread upgrade, hhop, hclosing, List.map_nil,
    List.append_nil, List.append_nil, isForwardable, hself]
  have hdropped : isDropped name =
      (eqIgnoreAsciiCase name (ascii "connection") || Engine.Headers.isHopByHop name) := rfl
  rw [hdropped]
  cases eqIgnoreAsciiCase name (ascii "connection") <;> cases Engine.Headers.isHopByHop name <;>
    cases connectionLists head buf name <;> rfl

end Written

section Trails

/-- The trail as the uring engine extends it. -/
def joinedTrail (trail : List Bytes) (ip : Bytes) : Bytes :=
  (trail.filter fun v => !v.isEmpty).flatMap (fun v => v ++ ascii ", ") ++ ip

private theorem foldl_join_ne {buffer : Bytes} (h : buffer ≠ []) (trail : List Bytes) :
    trail.foldl (fun trail existing =>
      let buffer := trail.getD []
      some ((if buffer.isEmpty then buffer else buffer ++ ascii ", ") ++ existing)) (some buffer) =
        some (buffer ++ trail.flatMap fun v => ascii ", " ++ v) := by
  induction trail generalizing buffer with
  | nil => simp
  | cons v trail ih =>
      have hsome : buffer.isEmpty = false := by simpa using h
      have hne : buffer ++ ascii ", " ++ v ≠ [] := by simp [h]
      simp only [List.foldl_cons, Option.getD_some, hsome, Bool.false_eq_true, if_false, ih hne]
      simp

/-- Separators in front of all but the first are separators behind all but the last. -/
private theorem separators_shift (v : Bytes) (trail : List Bytes) :
    (v ++ trail.flatMap fun w => ascii ", " ++ w) ++ ascii ", " =
      (v :: trail).flatMap fun w => w ++ ascii ", " := by
  induction trail generalizing v with
  | nil => simp
  | cons w trail ih =>
      have htail := ih w
      simp only [List.flatMap_cons, List.append_assoc] at htail ⊢
      rw [htail]

/-- Empty values are skipped by the hyper engine only before the first one that is not. -/
theorem extendedTrail_eq (trail : List Bytes) (ip : Bytes) :
    extendedTrail trail ip =
      if trail = [] then ip
      else if trail.dropWhile (·.isEmpty) = [] then ascii ", " ++ ip
      else (trail.dropWhile (·.isEmpty)).flatMap (fun v => v ++ ascii ", ") ++ ip := by
  have hjoin : ∀ trail : List Bytes, trail.foldl (fun trail existing =>
      let buffer := trail.getD []
      some ((if buffer.isEmpty then buffer else buffer ++ ascii ", ") ++ existing)) (some []) =
        some (if trail.dropWhile (·.isEmpty) = [] then []
          else (trail.dropWhile (·.isEmpty)).headD [] ++
            (trail.dropWhile (·.isEmpty)).tail.flatMap fun v => ascii ", " ++ v) := by
    intro trail
    induction trail with
    | nil => rfl
    | cons v trail ih =>
        cases v with
        | nil => simpa using ih
        | cons b v =>
            have hstep := foldl_join_ne (List.cons_ne_nil b v) trail
            simpa using hstep
  cases trail with
  | nil => rfl
  | cons v trail =>
      have hsame : joinTrail (v :: trail) = _ := hjoin (v :: trail)
      rw [extendedTrail, hsame, if_neg (List.cons_ne_nil v trail)]
      cases hkept : (v :: trail).dropWhile (·.isEmpty) with
      | nil => simp
      | cons w rest =>
          rw [if_neg (List.cons_ne_nil w rest), if_neg (List.cons_ne_nil w rest), List.headD_cons,
            List.tail_cons, ← separators_shift]

private theorem length_separated (trail : List Bytes) :
    (trail.flatMap fun v => v ++ ascii ", ").length =
      ((trail.filter fun v => !v.isEmpty).flatMap fun v => v ++ ascii ", ").length +
        2 * (trail.countP fun v => v.isEmpty) := by
  have hsep : (ascii ", ").length = 2 := by decide
  induction trail with
  | nil => rfl
  | cons v trail ih =>
      cases v with
      | nil =>
          simp only [List.flatMap_cons, List.length_append, ih, hsep, List.filter_cons,
            List.countP_cons, List.isEmpty_nil, Bool.not_true, Bool.false_eq_true, if_false,
            if_true, List.length_nil]
          omega
      | cons b v =>
          simp only [List.flatMap_cons, List.length_append, ih, List.filter_cons, List.countP_cons,
            List.isEmpty_cons, Bool.not_false, Bool.false_eq_true, if_false, if_true]
          omega

/-- A trail without an empty value behind its first, and with more than empty values in it. -/
def Dense (trail : List Bytes) : Prop :=
  trail.dropWhile (·.isEmpty) ≠ [] ∧ ∀ v ∈ trail.dropWhile (·.isEmpty), v ≠ []

private theorem filter_dropWhile (trail : List Bytes) :
    (trail.filter fun v => !v.isEmpty) =
      (trail.dropWhile (·.isEmpty)).filter fun v => !v.isEmpty := by
  induction trail with
  | nil => rfl
  | cons v trail ih =>
      cases v with
      | nil => simpa using ih
      | cons b v => simp

/-- Both engines extend a trail alike where there is none, or a dense one. -/
theorem extendedTrail_eq_joined (trail : List Bytes) (ip : Bytes) :
    extendedTrail trail ip = joinedTrail trail ip ↔ trail = [] ∨ Dense trail := by
  rw [extendedTrail_eq, joinedTrail, filter_dropWhile]
  by_cases hnone : trail = []
  · simp [hnone]
  rw [if_neg hnone]
  by_cases hempty : trail.dropWhile (·.isEmpty) = []
  · have hsep : ascii ", " ++ ip ≠ ip := by
      intro h
      have hlength := congrArg List.length h
      rw [List.length_append, show (ascii ", ").length = 2 by decide] at hlength
      omega
    simp [hempty, hnone, Dense, hsep]
  rw [if_neg hempty, List.append_cancel_right_eq]
  have hcount := length_separated (trail.dropWhile (·.isEmpty))
  constructor
  · intro h
    rw [h] at hcount
    refine .inr ⟨hempty, fun v hv hnil => ?_⟩
    have hpos : 0 < (trail.dropWhile (·.isEmpty)).countP fun v => v.isEmpty :=
      List.countP_pos_iff.mpr ⟨v, hv, by simp [hnil]⟩
    omega
  · rintro (h | ⟨-, hdense⟩)
    · exact absurd h hnone
    · have hall : ((trail.dropWhile (·.isEmpty)).filter fun v => !v.isEmpty) =
          trail.dropWhile (·.isEmpty) := by
        rw [List.filter_eq_self]
        intro v hv
        simpa using hdense v hv
      rw [hall]

end Trails

section Agreement

/-- Whether some `Connection` line lists a name. -/
def anyLists (fields : List (Bytes × Bytes)) (name : Bytes) : Bool :=
  (values fields CONNECTION).any fun value => hasToken value name

/-- The fields the comparison leaves out: the two that frame the body, and a host neither engine was
given. -/
def setAside (fields : List (Bytes × Bytes)) (name : Bytes) : Prop :=
  lowerName name = ascii "content-length" ∨ lowerName name = ascii "transfer-encoding" ∨
    (lowerName name = HOST ∧ values fields HOST = [])

/-- Both engines forward a request with the same fields: under each name the same values, in
whatever order. -/
def ForwardsAlike {M : Type} (lib : HeaderMapLib M) (conn : ConnInfo) (request : Request M)
    (head : Head) (buf : Bytes) (endpoint : SocketAddr) (framing : Framing) (hex : HexId) : Prop :=
  ∀ name, ¬ setAside (head.iter buf) name →
    (lib.getAll (http1Headers lib conn request hex) (lowerName name)).Perm
      (values (fieldsOf (writeUpstreamRequest head buf ⟨conn.remote, conn.scheme⟩ endpoint framing
        false (Engine.Headers.upgradeProtocol head buf) hex)) name)

/-- A name whose fields both engines only copy or drop. -/
def isOrdinary (name : Bytes) : Bool :=
  !isDropped name && !isSelfWritten name && lowerName name != HOST &&
    lowerName name != ascii "content-length"

/-- A request whose fields meet the places where the two engines read alike. -/
structure FieldsMeet (fields : List (Bytes × Bytes)) (authority : Option Bytes) (hex : HexId) :
    Prop where
  /-- What a later `Connection` line lists, the first one lists too. -/
  listed : ∀ name, isOrdinary name = true → values fields name ≠ [] → anyLists fields name = true →
    firstLists fields name = true
  host : values fields HOST ≠ [] → anyLists fields HOST = false
  /-- An upgrade names a protocol. -/
  upgrade : anyLists fields UPGRADE = true → (values fields UPGRADE).head? ≠ some []
  /-- No trail line is empty behind the first that is not, and one of them is not. -/
  trail : if firstLists fields X_FORWARDED_FOR then ∀ v ∈ values fields X_FORWARDED_FOR, v = []
    else values fields X_FORWARDED_FOR = [] ∨ Dense (values fields X_FORWARDED_FOR)
  /-- The target's authority, where it has one, is the host; without either no forwarded host
  came. -/
  forwardedHost : match authority with
    | some authority => (values fields HOST).head? = some authority
    | none => values fields HOST = [] → firstLists fields X_FORWARDED_HOST = false →
        values fields X_FORWARDED_HOST = []
  /-- One request id came, if any. -/
  requestId : ∀ id rest, values fields X_REQUEST_ID = id :: rest → id ≠ [] →
    if firstLists fields X_REQUEST_ID then id = hex.bytes else rest = []

variable {M : Type} {lib : HeaderMapLib M} {head : Head} {buf : Bytes} {conn : ConnInfo}
  {request : Request M} {hex : HexId}

private theorem connectionLists_eq (head : Head) (buf name : Bytes) :
    connectionLists head buf name = anyLists (head.iter buf) name := by
  rw [connectionLists, anyLists, values, List.any_map]
  rfl

private theorem anyLists_of_first {fields : List (Bytes × Bytes)} {name : Bytes}
    (h : firstLists fields name = true) : anyLists fields name = true := by
  unfold firstLists at h
  unfold anyLists
  cases hlines : values fields CONNECTION with
  | nil => simp [hlines] at h
  | cons value rest =>
      rw [hlines, List.head?_cons, Option.any_some] at h
      rw [List.any_cons, h, Bool.true_or]

private theorem value_of_mem {fields : List (Bytes × Bytes)} (hread : ∀ f ∈ fields, FieldRead f)
    {name v : Bytes} (hv : v ∈ values fields name) : trimOws v = v ∧ Clean v := by
  obtain ⟨f, hf, rfl⟩ := List.mem_map.mp hv
  have hfield := hread f (List.mem_filter.mp hf).1
  exact ⟨hfield.value_trimmed, hfield.value_clean⟩

/-- The uring engine's upgrade protocol, from the fields of the head. -/
private theorem upgrade_uring (hread : ∀ f ∈ head.iter buf, FieldRead f) :
    Engine.Headers.upgradeProtocol head buf =
      if anyLists (head.iter buf) UPGRADE then
        ((values (head.iter buf) UPGRADE).head?).filter (fun v => !v.isEmpty) else none := by
  have hlists : connectionLists head buf (ascii "upgrade") = anyLists (head.iter buf) UPGRADE :=
    connectionLists_eq head buf UPGRADE
  have hheader : head.header buf (ascii "upgrade") = (values (head.iter buf) UPGRADE).head? :=
    header_eq head buf UPGRADE
  rw [Engine.Headers.upgradeProtocol, hlists, hheader]
  split
  · cases hfirst : (values (head.iter buf) UPGRADE).head? with
    | none => rfl
    | some v =>
        have htrim : trimOws v = v := (value_of_mem hread (List.mem_of_mem_head? hfirst)).1
        cases v with
        | nil => rfl
        | cons b v => simp [htrim, Option.filter]
  · rfl

/-- The hyper engine's. -/
private theorem upgrade_hyper (hread : ∀ f ∈ head.iter buf, FieldRead f)
    (hcarries : lib.Carries request.headers (head.iter buf)) :
    upgradeProtocol lib request.headers =
      if anyLists (head.iter buf) UPGRADE then (values (head.iter buf) UPGRADE).head? else none := by
  have hupgrade : lib.getAll request.headers UPGRADE = values (head.iter buf) UPGRADE :=
    hcarries UPGRADE
  have hconnection : lib.getAll request.headers CONNECTION = values (head.iter buf) CONNECTION :=
    hcarries CONNECTION
  have htokens : ∀ value ∈ values (head.iter buf) CONNECTION,
      ((value.splitOn 44).any fun token => eqIgnoreAsciiCase (trimAscii token) UPGRADE) =
        hasToken value UPGRADE := by
    intro value hvalue
    have hclean := (value_of_mem hread hvalue).2
    rw [hasToken, Bool.eq_iff_iff, List.any_eq_true, List.any_eq_true]
    refine exists_congr fun token => and_congr_right fun htoken => ?_
    rw [trimAscii_of_clean fun b hb => hclean b (mem_of_mem_splitOn htoken hb)]
  have hany : ((values (head.iter buf) CONNECTION).any fun value =>
      (value.splitOn 44).any fun token => eqIgnoreAsciiCase (trimAscii token) UPGRADE) =
        anyLists (head.iter buf) UPGRADE := by
    rw [anyLists, Bool.eq_iff_iff, List.any_eq_true, List.any_eq_true]
    exact exists_congr fun value => and_congr_right fun hvalue => by rw [htokens value hvalue]
  rw [upgradeProtocol, HeaderMapLib.get, hupgrade, hconnection, hany]

private theorem upgrade_agrees (hread : ∀ f ∈ head.iter buf, FieldRead f)
    (hcarries : lib.Carries request.headers (head.iter buf)) :
    upgradeProtocol lib request.headers = Engine.Headers.upgradeProtocol head buf ↔
      (anyLists (head.iter buf) UPGRADE = true →
        (values (head.iter buf) UPGRADE).head? ≠ some []) := by
  rw [upgrade_hyper hread hcarries, upgrade_uring hread]
  cases anyLists (head.iter buf) UPGRADE with
  | false => simp
  | true =>
      cases (values (head.iter buf) UPGRADE).head? with
      | none => simp
      | some v => cases v <;> simp [Option.filter]

/-- Both engines forward one name with the same values. -/
private def AlikeAt (lib : HeaderMapLib M) (conn : ConnInfo) (request : Request M) (head : Head)
    (buf : Bytes) (endpoint : SocketAddr) (framing : Framing) (hex : HexId) (name : Bytes) : Prop :=
  (lib.getAll (http1Headers lib conn request hex) (lowerName name)).Perm
    (values (fieldsOf (writeUpstreamRequest head buf ⟨conn.remote, conn.scheme⟩ endpoint framing
      false (Engine.Headers.upgradeProtocol head buf) hex)) name)

variable {endpoint : SocketAddr} {framing : Framing}

private theorem alikeAt_congr {a b : Bytes} (h : lowerName a = lowerName b) :
    AlikeAt lib conn request head buf endpoint framing hex a ↔
      AlikeAt lib conn request head buf endpoint framing hex b := by
  rw [AlikeAt, AlikeAt, values_congr _ h, h]

private theorem perm_singleton_iff {a b : Bytes} : [a].Perm [b] ↔ a = b := by
  rw [List.perm_singleton, List.cons.injEq, and_iff_left rfl]

private theorem perm_toList_iff {a b : Option Bytes} : a.toList.Perm b.toList ↔ a = b := by
  cases a <;> cases b <;> simp

/-- What both engines read a request as. -/
private structure Read (lib : HeaderMapLib M) (request : Request M) (head : Head) (buf : Bytes) :
    Prop where
  parsed : ∃ lim h0, parseRequestHead lim buf h0 = (.ok true, head)
  carries : lib.Carries request.headers (head.iter buf)
  accepts : lib.Accepts (head.iter buf)
  authority : ∀ a ∈ request.uri.authority, lib.isValue a = true

/-- The values a request is sent with under the names the engines write themselves. -/
private theorem sentValues_own {left : Bytes → List Bytes} {upgrade host : Option Bytes} :
    sentValues left upgrade host conn hex HOST =
        (if left HOST = [] then host.toList else left HOST) ∧
      sentValues left upgrade host conn hex UPGRADE = upgrade.elim (left UPGRADE) ([·]) ∧
      sentValues left upgrade host conn hex CONNECTION =
        upgrade.elim (left CONNECTION) (fun _ => [UPGRADE]) ∧
      sentValues left upgrade host conn hex X_REQUEST_ID =
        (if (left X_REQUEST_ID).headD [] = [] then [hex.bytes] else left X_REQUEST_ID) ∧
      sentValues left upgrade host conn hex X_FORWARDED_HOST =
        host.elim (left X_FORWARDED_HOST) ([·]) ∧
      sentValues left upgrade host conn hex X_FORWARDED_FOR =
        [extendedTrail (left X_FORWARDED_FOR) conn.remote.display] ∧
      sentValues left upgrade host conn hex X_REAL_IP = [conn.remote.display] ∧
      sentValues left upgrade host conn hex X_FORWARDED_PROTO = [conn.scheme.asBytes] := by
  unfold sentValues
  refine ⟨?_, ?_, ?_, ?_, ?_, ?_, ?_, ?_⟩ <;> cases upgrade <;> cases host <;> simp +decide

private theorem lowerName_const :
    lowerName HOST = HOST ∧ lowerName UPGRADE = UPGRADE ∧ lowerName CONNECTION = CONNECTION ∧
      lowerName X_REQUEST_ID = X_REQUEST_ID ∧ lowerName X_FORWARDED_HOST = X_FORWARDED_HOST ∧
      lowerName X_FORWARDED_FOR = X_FORWARDED_FOR ∧ lowerName X_REAL_IP = X_REAL_IP ∧
      lowerName X_FORWARDED_PROTO = X_FORWARDED_PROTO := by
  decide

/-- A name written by no engine is not among those they write themselves. -/
private theorem ordinary_ne {name : Bytes} (hself : isSelfWritten name = false)
    (hdropped : lowerName name ≠ CONNECTION ∧ lowerName name ≠ UPGRADE)
    (hhost : lowerName name ≠ HOST) : ∀ n ∈ [HOST, UPGRADE, CONNECTION, X_REQUEST_ID,
      X_FORWARDED_HOST, X_FORWARDED_PROTO, X_REAL_IP, X_FORWARDED_FOR], lowerName name ≠ n := by
  have hown : ∀ n ∈ Engine.Headers.SELF_WRITTEN, lowerName name ≠ n := by
    intro n hn hsame
    have hlower : lowerName n = n :=
      (show ∀ n ∈ Engine.Headers.SELF_WRITTEN, lowerName n = n by decide) n hn
    exact List.any_eq_false.mp hself n hn (eqIgnoreAsciiCase_iff.mpr (hsame.trans hlower.symm))
  intro n hn hsame
  have hcases : n = HOST ∨ n = UPGRADE ∨ n = CONNECTION ∨ n ∈ Engine.Headers.SELF_WRITTEN :=
    (show ∀ n ∈ [HOST, UPGRADE, CONNECTION, X_REQUEST_ID, X_FORWARDED_HOST, X_FORWARDED_PROTO,
      X_REAL_IP, X_FORWARDED_FOR], n = HOST ∨ n = UPGRADE ∨ n = CONNECTION ∨
        n ∈ Engine.Headers.SELF_WRITTEN by decide) n hn
  rcases hcases with rfl | rfl | rfl | hmem
  · exact hhost hsame
  · exact hdropped.2 hsame
  · exact hdropped.1 hsame
  · exact hown n hmem hsame

private theorem isSelfWritten_of_ne {name : Bytes} (hfor : lowerName name ≠ X_FORWARDED_FOR)
    (hip : lowerName name ≠ X_REAL_IP) (hproto : lowerName name ≠ X_FORWARDED_PROTO)
    (hhost : lowerName name ≠ X_FORWARDED_HOST) (hid : lowerName name ≠ X_REQUEST_ID) :
    isSelfWritten name = false := by
  rw [isSelfWritten, List.any_eq_false]
  intro n hn hsame
  rw [eqIgnoreAsciiCase_iff] at hsame
  have hcases : lowerName n ∈ [X_FORWARDED_FOR, X_REAL_IP, X_FORWARDED_PROTO, X_FORWARDED_HOST,
      X_REQUEST_ID] :=
    (show ∀ n ∈ Engine.Headers.SELF_WRITTEN, lowerName n ∈ [X_FORWARDED_FOR, X_REAL_IP,
      X_FORWARDED_PROTO, X_FORWARDED_HOST, X_REQUEST_ID] by decide) n hn
  rw [← hsame] at hcases
  simp only [List.mem_cons, List.not_mem_nil, or_false] at hcases
  rcases hcases with hc | hc | hc | hc | hc
  exacts [hfor hc, hip hc, hproto hc, hhost hc, hid hc]

section OfRead

variable (h : Read lib request head buf)
include h

private theorem Read.fieldRead : ∀ f ∈ head.iter buf, FieldRead f := by
  obtain ⟨lim, h0, hparse⟩ := h.parsed
  obtain ⟨-, -, -, -, -, hread, -⟩ := accepted_request hparse
  exact hread

private theorem Read.left (name : Bytes) :
    lib.getAll (stripHopByHop lib request.headers) (lowerName name) =
      if isDropped name || firstLists (head.iter buf) name then []
      else values (head.iter buf) name :=
  getAll_stripHopByHop h.fieldRead h.accepts h.carries name

private theorem Read.clientHost_eq :
    clientHost lib request =
      request.uri.authority.or (values (head.iter buf) HOST).head? := by
  have hhost : lib.getAll request.headers HOST = values (head.iter buf) HOST := h.carries HOST
  have hvalue := h.authority
  unfold clientHost
  cases hauthority : request.uri.authority with
  | none =>
      rw [Option.none_or]
      simp only [HeaderMapLib.get, hhost]
  | some a =>
      rw [Option.some_or]
      exact if_pos (hvalue a (by rw [hauthority]; rfl))

private theorem Read.sent (conn : ConnInfo) (hex : HexId) (name : Bytes) :
    lib.getAll (http1Headers lib conn request hex) (lowerName name) =
      sentValues (lib.getAll (stripHopByHop lib request.headers))
        (upgradeProtocol lib request.headers) (clientHost lib request) conn hex
        (lowerName name) := by
  have hhex : lib.isValue hex.bytes = true := by
    refine lib.isValue_visible (List.all_eq_true.mpr fun b hb => ?_)
    exact forall_octet (p := fun b => isAsciiAlphanumeric b = true →
      ((0x20 ≤ b && b < 0x7f) || b == 9) = true) (by decide +kernel) b
        (List.all_eq_true.mp hex.alphanumeric b hb)
  refine getAll_http1Headers lib conn request hex hhex (fun v hv => ?_) (lowerName name)
  have hleft := h.left X_FORWARDED_FOR
  rw [show lowerName X_FORWARDED_FOR = X_FORWARDED_FOR by decide] at hleft
  rw [hleft] at hv
  split at hv
  · cases hv
  · obtain ⟨f, hf, rfl⟩ := List.mem_map.mp hv
    exact (h.accepts f (List.mem_filter.mp hf).1).2

private theorem Read.written :
    fieldsOf (writeUpstreamRequest head buf ⟨conn.remote, conn.scheme⟩ endpoint framing false
        (Engine.Headers.upgradeProtocol head buf) hex) =
      readBack (upstreamFields head buf ⟨conn.remote, conn.scheme⟩ endpoint framing false
        (Engine.Headers.upgradeProtocol head buf) hex) := by
  obtain ⟨lim, h0, hparse⟩ := h.parsed
  exact fieldsOf_written hparse ⟨conn.remote, conn.scheme⟩ endpoint framing false hex

private theorem Read.upgrade_trimmed :
    ∀ p ∈ Engine.Headers.upgradeProtocol head buf, trimOws p = p := by
  intro p hp
  rw [upgrade_uring h.fieldRead] at hp
  split at hp
  · cases hfirst : (values (head.iter buf) UPGRADE).head? with
    | none => simp [hfirst] at hp
    | some v =>
        rw [hfirst] at hp
        have hsame : v = p := (Option.filter_eq_some_iff.mp hp).1 |> Option.some.inj
        exact hsame ▸ (value_of_mem h.fieldRead (List.mem_of_mem_head? hfirst)).1
  · cases hp

private theorem Read.alike_host (hseen : values (head.iter buf) HOST ≠ []) :
    AlikeAt lib conn request head buf endpoint framing hex HOST ↔
      anyLists (head.iter buf) HOST = false := by
  have hleft := h.left HOST
  have hsent := h.sent conn hex HOST
  have hdropped : isDropped HOST = false := by decide
  rw [lowerName_const.1] at hleft hsent
  rw [AlikeAt, h.written, values_host _ endpoint framing hex h.fieldRead _ hseen, lowerName_const.1,
    hsent, sentValues_own.1, hleft, hdropped, Bool.false_or, connectionLists_eq, h.clientHost_eq]
  cases hany : anyLists (head.iter buf) HOST with
  | false =>
      have hfirst : firstLists (head.iter buf) HOST = false := by
        rw [Bool.eq_false_iff]
        intro hfirst
        rw [anyLists_of_first hfirst] at hany
        cases hany
      simp [hfirst, hseen]
  | true =>
      obtain ⟨v, rest, hv⟩ := List.exists_cons_of_ne_nil hseen
      cases firstLists (head.iter buf) HOST <;> cases request.uri.authority <;> simp [hv]

private theorem Read.alike_upgrade :
    AlikeAt lib conn request head buf endpoint framing hex UPGRADE ↔
      upgradeProtocol lib request.headers = Engine.Headers.upgradeProtocol head buf := by
  have hleft := h.left UPGRADE
  have hsent := h.sent conn hex UPGRADE
  have hdropped : isDropped UPGRADE = true := by decide
  have hwritten := (values_own ⟨conn.remote, conn.scheme⟩ endpoint framing hex h.fieldRead _
    h.upgrade_trimmed).2.2.2.2.2.2
  rw [lowerName_const.2.1] at hleft hsent
  rw [AlikeAt, h.written, hwritten, lowerName_const.2.1, hsent, sentValues_own.2.1, hleft, hdropped,
    ← perm_toList_iff]
  cases upgradeProtocol lib request.headers with
  | none => rfl
  | some p => rfl

private theorem Read.alike_connection
    (hsame : upgradeProtocol lib request.headers = Engine.Headers.upgradeProtocol head buf) :
    AlikeAt lib conn request head buf endpoint framing hex CONNECTION := by
  have hleft := h.left CONNECTION
  have hsent := h.sent conn hex CONNECTION
  have hdropped : isDropped CONNECTION = true := by decide
  have hwritten := (values_own ⟨conn.remote, conn.scheme⟩ endpoint framing hex h.fieldRead _
    h.upgrade_trimmed).2.2.2.2.2.1
  rw [lowerName_const.2.2.1] at hleft hsent
  rw [AlikeAt, h.written, hwritten, lowerName_const.2.2.1, hsent, sentValues_own.2.2.1, hleft,
    hdropped, hsame]
  cases Engine.Headers.upgradeProtocol head buf with
  | none => exact .refl _
  | some p => exact .refl _

private theorem Read.alike_requestId :
    AlikeAt lib conn request head buf endpoint framing hex X_REQUEST_ID ↔
      ∀ id rest, values (head.iter buf) X_REQUEST_ID = id :: rest → id ≠ [] →
        if firstLists (head.iter buf) X_REQUEST_ID then id = hex.bytes else rest = [] := by
  have hleft := h.left X_REQUEST_ID
  have hsent := h.sent conn hex X_REQUEST_ID
  have hdropped : isDropped X_REQUEST_ID = false := by decide
  have hwritten := (values_own ⟨conn.remote, conn.scheme⟩ endpoint framing hex h.fieldRead _
    h.upgrade_trimmed).2.2.2.2.1
  have hheader : head.header buf (ascii "x-request-id") =
      (values (head.iter buf) X_REQUEST_ID).head? := header_eq head buf X_REQUEST_ID
  have htrim : ∀ v ∈ values (head.iter buf) X_REQUEST_ID, trimOws v = v := fun v hv =>
    (value_of_mem h.fieldRead hv).1
  rw [lowerName_const.2.2.2.1] at hleft hsent
  rw [AlikeAt, h.written, hwritten, lowerName_const.2.2.2.1, hsent, sentValues_own.2.2.2.1, hleft,
    hdropped, Bool.false_or, requestId, inboundRequestId, hheader]
  cases hheld : values (head.iter buf) X_REQUEST_ID with
  | nil => simp
  | cons id rest =>
      have hid : trimOws id = id := htrim id (by rw [hheld]; exact List.mem_cons_self)
      cases id with
      | nil => cases firstLists (head.iter buf) X_REQUEST_ID <;> simp [hid]
      | cons b id =>
          cases firstLists (head.iter buf) X_REQUEST_ID with
          | false =>
              simp [hid, List.perm_singleton]
          | true => simp [hid, eq_comm]

private theorem Read.alike_forwardedHost :
    AlikeAt lib conn request head buf endpoint framing hex X_FORWARDED_HOST ↔
      match request.uri.authority with
      | some authority => (values (head.iter buf) HOST).head? = some authority
      | none => values (head.iter buf) HOST = [] →
          firstLists (head.iter buf) X_FORWARDED_HOST = false →
            values (head.iter buf) X_FORWARDED_HOST = [] := by
  have hleft := h.left X_FORWARDED_HOST
  have hsent := h.sent conn hex X_FORWARDED_HOST
  have hdropped : isDropped X_FORWARDED_HOST = false := by decide
  have hwritten := (values_own ⟨conn.remote, conn.scheme⟩ endpoint framing hex h.fieldRead _
    h.upgrade_trimmed).2.2.2.1
  rw [lowerName_const.2.2.2.2.1] at hleft hsent
  rw [AlikeAt, h.written, hwritten, lowerName_const.2.2.2.2.1, hsent, sentValues_own.2.2.2.2.1,
    hleft, hdropped, Bool.false_or, h.clientHost_eq, header_eq]
  cases request.uri.authority with
  | some a => simp [← perm_toList_iff, List.perm_comm]
  | none =>
      cases values (head.iter buf) HOST with
      | nil => cases firstLists (head.iter buf) X_FORWARDED_HOST <;> simp
      | cons v rest => simp

private theorem Read.alike_trail :
    AlikeAt lib conn request head buf endpoint framing hex X_FORWARDED_FOR ↔
      if firstLists (head.iter buf) X_FORWARDED_FOR then
        ∀ v ∈ values (head.iter buf) X_FORWARDED_FOR, v = []
      else values (head.iter buf) X_FORWARDED_FOR = [] ∨
        Dense (values (head.iter buf) X_FORWARDED_FOR) := by
  have hleft := h.left X_FORWARDED_FOR
  have hsent := h.sent conn hex X_FORWARDED_FOR
  have hdropped : isDropped X_FORWARDED_FOR = false := by decide
  have hwritten := (values_own ⟨conn.remote, conn.scheme⟩ endpoint framing hex h.fieldRead _
    h.upgrade_trimmed).1
  have hjoined : forwardedForValue head buf ⟨conn.remote, conn.scheme⟩ =
      joinedTrail (values (head.iter buf) X_FORWARDED_FOR) conn.remote.display := by
    have htrim : ((head.headersNamed buf (ascii "x-forwarded-for")).map fun f => trimOws f.2) =
        values (head.iter buf) X_FORWARDED_FOR :=
      List.map_congr_left fun f hf => (h.fieldRead f (List.mem_filter.mp hf).1).value_trimmed
    rw [forwardedForValue, htrim, joinedTrail]
  rw [lowerName_const.2.2.2.2.2.1] at hleft hsent
  rw [AlikeAt, h.written, hwritten, lowerName_const.2.2.2.2.2.1, hsent, sentValues_own.2.2.2.2.2.1,
    hleft, hdropped, Bool.false_or, hjoined, perm_singleton_iff]
  cases firstLists (head.iter buf) X_FORWARDED_FOR with
  | false => exact extendedTrail_eq_joined _ _
  | true =>
      have hnone : extendedTrail [] conn.remote.display = conn.remote.display := rfl
      have hall : ((values (head.iter buf) X_FORWARDED_FOR).filter fun v => !v.isEmpty) = [] ↔
          ∀ v ∈ values (head.iter buf) X_FORWARDED_FOR, v = [] := by
        simp [List.filter_eq_nil_iff]
      rw [if_pos rfl, if_pos rfl, hnone, ← hall, joinedTrail]
      constructor
      · intro hsame
        have hflat := List.self_eq_append_left.mp hsame
        rw [List.eq_nil_iff_forall_not_mem]
        intro v hv
        have hsep := List.flatMap_eq_nil_iff.mp hflat v hv
        exact absurd (List.append_eq_nil_iff.mp hsep).2 (by decide)
      · intro hsame
        rw [hsame]
        rfl

private theorem Read.alike_given :
    AlikeAt lib conn request head buf endpoint framing hex X_REAL_IP ∧
      AlikeAt lib conn request head buf endpoint framing hex X_FORWARDED_PROTO := by
  have hip := h.sent conn hex X_REAL_IP
  have hproto := h.sent conn hex X_FORWARDED_PROTO
  obtain ⟨-, hwrittenIp, hwrittenProto, -⟩ := values_own ⟨conn.remote, conn.scheme⟩ endpoint framing
    hex h.fieldRead _ h.upgrade_trimmed
  rw [lowerName_const.2.2.2.2.2.2.1] at hip
  rw [lowerName_const.2.2.2.2.2.2.2] at hproto
  rw [AlikeAt, AlikeAt, h.written, hwrittenIp, hwrittenProto, lowerName_const.2.2.2.2.2.2.1,
    lowerName_const.2.2.2.2.2.2.2, hip, hproto, sentValues_own.2.2.2.2.2.2.1,
    sentValues_own.2.2.2.2.2.2.2]
  exact ⟨.refl _, .refl _⟩

private theorem Read.alike_copied {name : Bytes} (hself : isSelfWritten name = false)
    (hdropped : lowerName name ≠ CONNECTION ∧ lowerName name ≠ UPGRADE)
    (hhost : lowerName name ≠ HOST) (hcoding : lowerName name ≠ ascii "transfer-encoding") :
    AlikeAt lib conn request head buf endpoint framing hex name ↔
      (isDropped name = false → values (head.iter buf) name ≠ [] →
        anyLists (head.iter buf) name = true → firstLists (head.iter buf) name = true) := by
  have hne := ordinary_ne hself hdropped hhost
  simp only [List.forall_mem_cons, List.not_mem_nil, false_implies, implies_true, and_true] at hne
  obtain ⟨h1, h2, h3, h4, h5, h6, h7, h8⟩ := hne
  have hsent : sentValues (lib.getAll (stripHopByHop lib request.headers))
      (upgradeProtocol lib request.headers) (clientHost lib request) conn hex (lowerName name) =
        lib.getAll (stripHopByHop lib request.headers) (lowerName name) := by
    unfold sentValues
    simp only [h1, h2, h3, h4, h5, h6, h7, h8, false_and, if_false]
  rw [AlikeAt, h.written, values_copied _ endpoint framing hex h.fieldRead _ hself hhost hdropped.1
    hdropped.2 hcoding, h.sent conn hex, hsent, h.left, connectionLists_eq]
  cases isDropped name with
  | true => simp
  | false =>
      cases hany : anyLists (head.iter buf) name with
      | false =>
          have hfirst : firstLists (head.iter buf) name = false := by
            rw [Bool.eq_false_iff]
            intro hfirst
            rw [anyLists_of_first hfirst] at hany
            cases hany
          simp [hfirst]
      | true => cases firstLists (head.iter buf) name <;> simp

end OfRead

/-- For every request head both engines accept: they forward the same fields exactly where its
fields meet the places in which the two read alike. -/
theorem forwardsAlike_iff {lim : Limits} {h0 : Head}
    (hparse : parseRequestHead lim buf h0 = (.ok true, head))
    (hcarries : lib.Carries request.headers (head.iter buf))
    (haccepts : lib.Accepts (head.iter buf))
    (hauthority : ∀ a ∈ request.uri.authority, lib.isValue a = true) :
    ForwardsAlike lib conn request head buf endpoint framing hex ↔
      FieldsMeet (head.iter buf) request.uri.authority hex := by
  have h : Read lib request head buf := ⟨⟨lim, h0, hparse⟩, hcarries, haccepts, hauthority⟩
  have haside : ∀ n ∈ [UPGRADE, X_REQUEST_ID, X_FORWARDED_HOST, X_FORWARDED_FOR],
      ¬ setAside (head.iter buf) n := by
    have hconst : ∀ n ∈ [UPGRADE, X_REQUEST_ID, X_FORWARDED_HOST, X_FORWARDED_FOR],
        lowerName n ≠ ascii "content-length" ∧ lowerName n ≠ ascii "transfer-encoding" ∧
          lowerName n ≠ HOST := by decide
    rintro n hn (hlength | hcoding | hhost)
    · exact (hconst n hn).1 hlength
    · exact (hconst n hn).2.1 hcoding
    · exact (hconst n hn).2.2 hhost.1
  constructor
  · intro halike
    refine ⟨fun name hname hcame => ?_, fun hseen => ?_, ?_, ?_, ?_, ?_⟩
    · simp only [isOrdinary, Bool.and_eq_true, Bool.not_eq_true', bne_iff_ne] at hname
      obtain ⟨⟨⟨hdropped, hself⟩, hhost⟩, hlength⟩ := hname
      have hnot := mt (isDropped_iff name).mpr (by rw [hdropped]; exact Bool.false_ne_true)
      rw [not_or] at hnot
      have hupgrade : lowerName name ≠ UPGRADE := fun hsame => hnot.2 (by rw [hsame]; decide)
      have hcoding : lowerName name ≠ ascii "transfer-encoding" := fun hsame =>
        hnot.2 (by rw [hsame]; decide)
      refine (h.alike_copied hself ⟨hnot.1, hupgrade⟩ hhost hcoding).mp (halike name ?_) hdropped
        hcame
      rintro (hsame | hsame | hsame)
      · exact hlength hsame
      · exact hcoding hsame
      · exact hhost hsame.1
    · refine (h.alike_host hseen).mp (halike HOST ?_)
      rintro (hsame | hsame | hsame)
      · exact absurd hsame (by decide)
      · exact absurd hsame (by decide)
      · exact hseen hsame.2
    · exact (upgrade_agrees h.fieldRead hcarries).mp
        (h.alike_upgrade.mp (halike UPGRADE (haside _ (by simp))))
    · exact h.alike_trail.mp (halike X_FORWARDED_FOR (haside _ (by simp)))
    · exact h.alike_forwardedHost.mp (halike X_FORWARDED_HOST (haside _ (by simp)))
    · exact h.alike_requestId.mp (halike X_REQUEST_ID (haside _ (by simp)))
  · intro hmeet name hname
    have hprotocol := (upgrade_agrees h.fieldRead hcarries).mpr hmeet.upgrade
    by_cases hspecial : lowerName name ∈ [HOST, UPGRADE, CONNECTION, X_REQUEST_ID,
        X_FORWARDED_HOST, X_FORWARDED_PROTO, X_REAL_IP, X_FORWARDED_FOR]
    · have hlower : lowerName (lowerName name) = lowerName name := lowerName_lowerName name
      refine (alikeAt_congr hlower).mp ?_
      simp only [List.mem_cons, List.not_mem_nil, or_false] at hspecial
      rcases hspecial with hn | hn | hn | hn | hn | hn | hn | hn <;> rw [hn]
      · have hseen : values (head.iter buf) HOST ≠ [] := fun hnone =>
          hname (.inr (.inr ⟨hn, hnone⟩))
        exact (h.alike_host hseen).mpr (hmeet.host hseen)
      · exact h.alike_upgrade.mpr hprotocol
      · exact h.alike_connection hprotocol
      · exact h.alike_requestId.mpr hmeet.requestId
      · exact h.alike_forwardedHost.mpr hmeet.forwardedHost
      · exact h.alike_given.2
      · exact h.alike_given.1
      · exact h.alike_trail.mpr hmeet.trail
    · simp only [List.mem_cons, List.not_mem_nil, or_false, not_or] at hspecial
      obtain ⟨h1, h2, h3, h4, h5, h6, h7, h8⟩ := hspecial
      have hself : isSelfWritten name = false := isSelfWritten_of_ne h8 h7 h6 h5 h4
      have hcoding : lowerName name ≠ ascii "transfer-encoding" := fun hsame =>
        hname (.inr (.inl hsame))
      refine (h.alike_copied hself ⟨h3, h2⟩ h1 hcoding).mpr fun hdropped hcame =>
        hmeet.listed name ?_ hcame
      simp only [isOrdinary, Bool.and_eq_true, Bool.not_eq_true', bne_iff_ne]
      exact ⟨⟨⟨hdropped, hself⟩, h1⟩, fun hsame => hname (.inl hsame)⟩

section Requests

private def anyConn : ConnInfo := ⟨.v4 (.replicate 4 198), .http⟩

private def anyBackend : SocketAddr := ⟨.v4 (.replicate 4 10), 8080, 0⟩

private def freshId : HexId := ⟨List.replicate 32 97, by decide, by decide⟩

/-- A head as the uring engine parses it. -/
private def headOf (buf : Bytes) : Head := (parseRequestHead Limits.standard buf {}).2

/-- The same request as the hyper engine has it. -/
private def requestOf (buf : Bytes) : Request (List (Bytes × Bytes)) :=
  ⟨⟨none, ascii "/"⟩, listed ((headOf buf).iter buf)⟩

private def oneHop : Bytes := ascii
  "GET / HTTP/1.1\r\nHost: a\r\nConnection: X-Hop\r\nX-Hop: 1\r\nX-Forwarded-For: b\r\n\r\n"

private def twoHops : Bytes := ascii
  "GET / HTTP/1.1\r\nHost: a\r\nConnection: keep-alive\r\nConnection: X-Hop\r\nX-Hop: 1\r\n\r\n"

private def oneHopFields : List (Bytes × Bytes) :=
  [(ascii "Host", ascii "a"), (ascii "Connection", ascii "X-Hop"), (ascii "X-Hop", ascii "1"),
    (ascii "X-Forwarded-For", ascii "b")]

private def twoHopsFields : List (Bytes × Bytes) :=
  [(ascii "Host", ascii "a"), (ascii "Connection", ascii "keep-alive"),
    (ascii "Connection", ascii "X-Hop"), (ascii "X-Hop", ascii "1")]

private theorem iter_oneHop : (headOf oneHop).iter oneHop = oneHopFields := by
  rw [headOf, oneHop, ascii_ofList]
  decide +kernel

private theorem iter_twoHops : (headOf twoHops).iter twoHops = twoHopsFields := by
  rw [headOf, twoHops, ascii_ofList]
  decide +kernel

/-- One `Connection` line, a trail and a host: both engines drop the field it lists. -/
theorem forwardsAlike_of_one_hop :
    ForwardsAlike listMap anyConn (requestOf oneHop) (headOf oneHop) oneHop anyBackend .empty
      freshId := by
  have hparse : parseRequestHead Limits.standard oneHop {} = (.ok true, headOf oneHop) := by
    rw [headOf, oneHop, ascii_ofList]
    decide +kernel
  have haccepts : listMap.Accepts ((headOf oneHop).iter oneHop) := by
    rw [iter_oneHop]
    unfold HeaderMapLib.Accepts
    decide +kernel
  refine (forwardsAlike_iff hparse (carries_listed _) haccepts (fun _ hnone => by cases hnone)).mpr
    ?_
  have hline : values oneHopFields CONNECTION = [ascii "X-Hop"] := by decide +kernel
  rw [iter_oneHop]
  refine ⟨fun name _ _ hany => ?_, by decide +kernel, by decide +kernel, ?_, ?_, ?_⟩
  · simp only [anyLists, firstLists, hline, List.any_cons, List.any_nil, Bool.or_false,
      List.head?_cons, Option.any_some] at hany ⊢
    exact hany
  · have hnone : firstLists oneHopFields X_FORWARDED_FOR = false := by decide +kernel
    have htrail : values oneHopFields X_FORWARDED_FOR = [ascii "b"] := by decide +kernel
    rw [hnone, htrail]
    exact .inr ⟨by decide, by decide⟩
  · exact fun hnone => absurd hnone (by decide +kernel)
  · have hid : values oneHopFields X_REQUEST_ID = [] := by decide +kernel
    intro id rest hheld
    rw [hid] at hheld
    cases hheld

/-- A field the second `Connection` line lists is forwarded by the hyper engine alone. -/
theorem not_forwardsAlike_of_two_hops :
    parseRequestHead Limits.standard twoHops {} = (.ok true, headOf twoHops) ∧
      listMap.Carries (requestOf twoHops).headers ((headOf twoHops).iter twoHops) ∧
      listMap.Accepts ((headOf twoHops).iter twoHops) ∧
      ¬ ForwardsAlike listMap anyConn (requestOf twoHops) (headOf twoHops) twoHops anyBackend .empty
        freshId := by
  have hparse : parseRequestHead Limits.standard twoHops {} = (.ok true, headOf twoHops) := by
    rw [headOf, twoHops, ascii_ofList]
    decide +kernel
  have haccepts : listMap.Accepts ((headOf twoHops).iter twoHops) := by
    rw [iter_twoHops]
    unfold HeaderMapLib.Accepts
    decide +kernel
  refine ⟨hparse, carries_listed _, haccepts, fun halike => ?_⟩
  have hhop := halike (ascii "X-Hop") (by rw [setAside, iter_twoHops]; decide +kernel)
  have hhyper : listMap.getAll (http1Headers listMap anyConn (requestOf twoHops) freshId)
      (lowerName (ascii "X-Hop")) = [ascii "1"] := by
    rw [requestOf, iter_twoHops]
    decide +kernel
  have huring : values (fieldsOf (writeUpstreamRequest (headOf twoHops) twoHops
      ⟨anyConn.remote, anyConn.scheme⟩ anyBackend .empty false
        (Engine.Headers.upgradeProtocol (headOf twoHops) twoHops) freshId)) (ascii "X-Hop") = [] := by
    rw [headOf, twoHops, ascii_ofList]
    decide +kernel
  rw [hhyper, huring] at hhop
  exact absurd hhop.length_eq (by decide)

end Requests

end Agreement

end Ramjet.Proxy.HeaderParity
