/- digest: What the hyper engine forwards under each name, from the fields that came. -/

import Ramjet.Base.Segments
import Ramjet.Engine.FramingAgreement
import Ramjet.Proxy.Forward

set_option autoImplicit false
set_option relaxedAutoImplicit false

namespace Ramjet.Proxy.SentFields

open Ramjet.Base.Octets
open Ramjet.Base.Net
open Ramjet.Base.Segments
open Ramjet.Engine.Codec.MessageHead
open Ramjet.Engine.Codec.AcceptedHead
open Ramjet.Engine.Codec.BodyFraming
open Ramjet.Engine.Headers (HexId)
open Ramjet.Engine.RewrittenFields
open Ramjet.Proxy.HeaderMap
open Ramjet.Proxy.Headers
open Ramjet.Proxy.Forward

section Tokens

/-- Text without the two ends it would be trimmed of is not trimmed. -/
theorem trimOws_eq_self {v : Bytes} (hhead : ∀ b, v.head? = some b → isOws b = false)
    (hlast : ∀ b, v.getLast? = some b → isOws b = false) : trimOws v = v := by
  cases v with
  | nil => rfl
  | cons b v =>
      have hkept : (b :: v).dropWhile isOws = b :: v := by
        rw [List.dropWhile_cons_of_neg]
        rw [hhead b rfl]
        exact Bool.false_ne_true
      rw [trimOws, hkept, List.rdropWhile_eq_self_iff]
      intro hne
      rw [hlast _ (List.getLast?_eq_some_getLast hne)]
      exact Bool.false_ne_true

private theorem isAsciiWhitespace_of_clean {b : UInt8} (h : isControl b = false) :
    isAsciiWhitespace b = isOws b := by
  by_cases h10 : b = 10
  · subst h10
    exact absurd h (by decide)
  by_cases h12 : b = 12
  · subst h12
    exact absurd h (by decide)
  by_cases h13 : b = 13
  · subst h13
    exact absurd h (by decide)
  rw [isAsciiWhitespace, beq_false_of_ne h10, beq_false_of_ne h12, beq_false_of_ne h13]
  simp [isOws]

private theorem dropWhile_congr {p q : UInt8 → Bool} {l : Bytes} (h : ∀ b ∈ l, p b = q b) :
    l.dropWhile p = l.dropWhile q := by
  induction l with
  | nil => rfl
  | cons b l ih =>
      have hb := h b List.mem_cons_self
      have hl := ih fun x hx => h x (List.mem_cons_of_mem b hx)
      cases hq : q b with
      | true => rw [List.dropWhile_cons_of_pos (hb.trans hq), List.dropWhile_cons_of_pos hq, hl]
      | false =>
          rw [List.dropWhile_cons_of_neg (by rw [hb, hq]; exact Bool.false_ne_true),
            List.dropWhile_cons_of_neg (by rw [hq]; exact Bool.false_ne_true)]

/-- Between the octets of a field value there is no other white space than the optional one. -/
theorem trimAscii_of_clean {v : Bytes} (h : Clean v) : trimAscii v = trimOws v := by
  have hsame : ∀ b ∈ v, isAsciiWhitespace b = isOws b := fun b hb =>
    isAsciiWhitespace_of_clean (h b hb)
  rw [trimAscii, trimOws, List.rdropWhile, List.rdropWhile, dropWhile_congr hsame]
  rw [dropWhile_congr fun b hb => ?_]
  exact hsame b ((List.dropWhile_sublist _).subset (List.mem_reverse.mp hb))

end Tokens

section Stripped

/-- Whether the first `Connection` line lists a name. -/
def firstLists (fields : List (Bytes × Bytes)) (name : Bytes) : Bool :=
  (values fields CONNECTION).head?.any fun value => hasToken value name

/-- The names no engine copies from a request: `Connection` and the hop-by-hop ones. -/
def isDropped (name : Bytes) : Bool :=
  eqIgnoreAsciiCase name CONNECTION || Engine.Headers.isHopByHop name

theorem isDropped_iff (name : Bytes) :
    isDropped name = true ↔ lowerName name = CONNECTION ∨ lowerName name ∈ HOP_BY_HOP := by
  have hlower : lowerName CONNECTION = CONNECTION := by decide
  have hall : ∀ h ∈ HOP_BY_HOP, lowerName h = h := by decide
  have hsame : Engine.Headers.HOP_BY_HOP = HOP_BY_HOP := rfl
  rw [isDropped, Bool.or_eq_true, eqIgnoreAsciiCase_iff, hlower, Engine.Headers.isHopByHop, hsame,
    List.any_eq_true]
  constructor
  · rintro (h | ⟨hop, hhop, h⟩)
    · exact .inl h
    · rw [eqIgnoreAsciiCase_iff, hall hop hhop] at h
      exact .inr (h ▸ hhop)
  · rintro (h | h)
    · exact .inl h
    · exact .inr ⟨lowerName name, h, by rw [eqIgnoreAsciiCase_iff, lowerName_lowerName]⟩

variable {M : Type} (lib : HeaderMapLib M)

/-- A token that spells a name. -/
def Spells (token name : Bytes) : Prop :=
  trimAscii token ≠ [] ∧ lib.nameOf (trimAscii token) = some name

private theorem getAll_removeToken (m : M) (token name : Bytes) :
    (Spells lib token name → lib.getAll (removeToken lib m token) name = []) ∧
      (¬ Spells lib token name → lib.getAll (removeToken lib m token) name = lib.getAll m name) := by
  unfold removeToken
  simp only [List.isEmpty_iff]
  split
  · rename_i hempty
    exact ⟨fun h => absurd hempty h.1, fun _ => rfl⟩
  · rename_i hsome
    split
    · rename_i found hfound
      rw [lib.getAll_remove]
      by_cases hname : name = found
      · subst hname
        exact ⟨fun _ => if_pos rfl, fun h => absurd ⟨hsome, hfound⟩ h⟩
      · rw [if_neg hname]
        exact ⟨fun h => absurd (Option.some.inj (hfound.symm.trans h.2)).symm hname, fun _ => rfl⟩
    · rename_i hnone
      exact ⟨fun h => absurd (hnone.symm.trans h.2) (Option.some_ne_none _).symm, fun _ => rfl⟩

private theorem getAll_removeTokens (tokens : List Bytes) (m : M) (name : Bytes) :
    ((∃ token ∈ tokens, Spells lib token name) →
      lib.getAll (tokens.foldl (removeToken lib) m) name = []) ∧
      ((¬ ∃ token ∈ tokens, Spells lib token name) →
        lib.getAll (tokens.foldl (removeToken lib) m) name = lib.getAll m name) := by
  induction tokens generalizing m with
  | nil => exact ⟨fun ⟨_, h, _⟩ => (by cases h), fun _ => rfl⟩
  | cons token tokens ih =>
      obtain ⟨hgone, hkept⟩ := getAll_removeToken lib m token name
      obtain ⟨hlater, hrest⟩ := ih (removeToken lib m token)
      rw [List.foldl_cons]
      constructor
      · rintro ⟨t, ht, hspells⟩
        by_cases hagain : ∃ token ∈ tokens, Spells lib token name
        · exact hlater hagain
        · rw [hrest hagain]
          rcases List.mem_cons.mp ht with rfl | ht
          · exact hgone hspells
          · exact absurd ⟨t, ht, hspells⟩ hagain
      · intro hnone
        rw [hrest fun ⟨t, ht, h⟩ => hnone ⟨t, List.mem_cons_of_mem token ht, h⟩]
        exact hkept fun h => hnone ⟨token, List.mem_cons_self, h⟩

variable {lib} {fields : List (Bytes × Bytes)} {m : M}

/-- Of the names that came, those a `Connection` value spells are those it lists. -/
private theorem spells_iff (hread : ∀ f ∈ fields, FieldRead f) (haccepts : lib.Accepts fields)
    {value name : Bytes} (hvalue : Clean value) (hname : values fields name ≠ []) :
    (∃ token ∈ value.splitOn 44, Spells lib token (lowerName name)) ↔
      hasToken value name = true := by
  obtain ⟨f, hf⟩ := List.exists_mem_of_ne_nil (named fields name)
    (fun h => hname (by rw [values, h, List.map_nil]))
  obtain ⟨hin, hsame⟩ := List.mem_filter.mp hf
  rw [eqIgnoreAsciiCase_iff] at hsame
  obtain ⟨found, hfound⟩ := Option.isSome_iff_exists.mp (haccepts f hin).1
  have hspelt : lib.nameOf f.1 = some (lowerName name) := by
    rw [hfound, lib.nameOf_lower hfound, hsame]
  rw [hasToken, List.any_eq_true]
  refine exists_congr fun token => and_congr_right fun htoken => ?_
  have htrim : trimAscii token = trimOws token :=
    trimAscii_of_clean fun b hb => hvalue b (mem_of_mem_splitOn htoken hb)
  rw [Spells, htrim, eqIgnoreAsciiCase_iff]
  constructor
  · rintro ⟨-, hspells⟩
    exact (lib.nameOf_lower hspells).symm
  · intro h
    refine ⟨fun hempty => ?_, ?_⟩
    · rw [hempty, ← hsame] at h
      have hnil : f.1 = [] := List.map_eq_nil_iff.mp h.symm
      exact (hread f hin).name_ne hnil
    · rw [← hspelt]
      exact lib.nameOf_congr (h.trans hsame.symm)

/-- A name a strip takes out of a map. -/
def Stripped (lib : HeaderMapLib M) (m : M) (name : Bytes) : Prop :=
  name = CONNECTION ∨ name ∈ HOP_BY_HOP ∨
    ∃ value, (lib.getAll m CONNECTION).head? = some value ∧
      ∃ token ∈ value.splitOn 44, Spells lib token name

private theorem getAll_strip (lib : HeaderMapLib M) (m : M) (name : Bytes) :
    (Stripped lib m name → lib.getAll (stripHopByHop lib m) name = []) ∧
      (¬ Stripped lib m name → lib.getAll (stripHopByHop lib m) name = lib.getAll m name) := by
  have hremoved : lib.getAll (lib.remove m CONNECTION).2 name =
      if name = CONNECTION then [] else lib.getAll m name := lib.getAll_remove m CONNECTION name
  simp only [stripHopByHop, lib.remove_fst, lib.getAll_removeAll, Stripped]
  by_cases hhop : name ∈ HOP_BY_HOP
  · simp only [hhop, if_true, true_or, or_true, not_true, false_implies, implies_true, and_self]
  simp only [hhop, if_false, false_or]
  cases hfirst : (lib.getAll m CONNECTION).head? with
  | none =>
      simp only [hremoved, reduceCtorEq, false_and, exists_false, or_false]
      exact ⟨fun h => if_pos h, fun h => if_neg h⟩
  | some value =>
      obtain ⟨hgone, hkept⟩ :=
        getAll_removeTokens lib (value.splitOn 44) (lib.remove m CONNECTION).2 name
      simp only [Option.some.injEq, exists_eq_left']
      constructor
      · intro h
        by_cases hspelt : ∃ token ∈ value.splitOn 44, Spells lib token name
        · exact hgone hspelt
        · rw [hkept hspelt, hremoved, if_pos (h.resolve_right hspelt)]
      · intro h
        rw [not_or] at h
        rw [hkept h.2, hremoved, if_neg h.1]

/-- What a strip leaves under a name. -/
theorem getAll_stripHopByHop (hread : ∀ f ∈ fields, FieldRead f) (haccepts : lib.Accepts fields)
    (hcarries : lib.Carries m fields) (name : Bytes) :
    lib.getAll (stripHopByHop lib m) (lowerName name) =
      if isDropped name || firstLists fields name then [] else values fields name := by
  have hheld : lib.getAll m (lowerName name) = values fields name := hcarries name
  have hconnection : lib.getAll m CONNECTION = values fields CONNECTION := hcarries CONNECTION
  obtain ⟨hgone, hkept⟩ := getAll_strip lib m (lowerName name)
  rw [hheld] at hkept
  by_cases hnone : values fields name = []
  · rw [hnone] at hkept ⊢
    rw [ite_self]
    exact (em (Stripped lib m (lowerName name))).elim hgone hkept
  have hlisted : (∃ value, (lib.getAll m CONNECTION).head? = some value ∧
      ∃ token ∈ value.splitOn 44, Spells lib token (lowerName name)) ↔
        firstLists fields name = true := by
    rw [hconnection, firstLists]
    cases hfirst : (values fields CONNECTION).head? with
    | none => simp
    | some value =>
        have hmem : value ∈ values fields CONNECTION := List.mem_of_mem_head? hfirst
        obtain ⟨f, hf, rfl⟩ := List.mem_map.mp hmem
        have hclean : Clean f.2 := (hread f (List.mem_filter.mp hf).1).value_clean
        simp [spells_iff hread haccepts hclean hnone]
  have hstripped : Stripped lib m (lowerName name) ↔
      (isDropped name || firstLists fields name) = true := by
    rw [Bool.or_eq_true, isDropped_iff, ← hlisted, Stripped, or_assoc]
  by_cases h : (isDropped name || firstLists fields name) = true
  · rw [if_pos h]
    exact hgone (hstripped.mpr h)
  · rw [if_neg h]
    exact hkept fun hs => h (hstripped.mp hs)

end Stripped

section Sent

variable {M : Type} (lib : HeaderMapLib M)

/-- The trail a request leaves with: what there was, and the client behind it. -/
def extendedTrail (trail : List Bytes) (ip : Bytes) : Bytes :=
  match joinTrail trail with
  | some buffer => buffer ++ ascii ", " ++ ip
  | none => ip

private theorem isValue_joined (values : List Bytes) (trail : Option Bytes)
    (hvalues : ∀ v ∈ values, lib.isValue v = true) (htrail : ∀ t, trail = some t →
      lib.isValue t = true) {joined : Bytes}
    (h : values.foldl (fun trail existing =>
      let buffer := trail.getD []
      some ((if buffer.isEmpty then buffer else buffer ++ ascii ", ") ++ existing)) trail =
        some joined) : lib.isValue joined = true := by
  induction values generalizing trail with
  | nil => exact htrail joined h
  | cons v values ih =>
      refine ih _ (fun w hw => hvalues w (List.mem_cons_of_mem v hw)) ?_ h
      intro t ht
      cases ht
      have hv := hvalues v List.mem_cons_self
      have hsep : lib.isValue (ascii ", ") = true := lib.isValue_visible (by decide)
      cases trail with
      | none => exact lib.isValue_append (lib.isValue_visible rfl) hv
      | some buffer =>
          have hbuffer := htrail buffer rfl
          simp only [Option.getD_some]
          split
          · exact lib.isValue_append hbuffer hv
          · exact lib.isValue_append (lib.isValue_append hbuffer hsep) hv

private theorem isValue_display (ip : IpAddr) : lib.isValue ip.display = true := by
  refine lib.isValue_visible (List.all_eq_true.mpr fun b hb => ?_)
  exact forall_octet (p := fun b => isAddressOctet b = true →
    ((0x20 ≤ b && b < 0x7f) || b == 9) = true) (by decide +kernel) b (IpAddr.display_octets ip b hb)

/-- The trail is a value where its parts are. -/
private theorem isValue_extendedTrail {trail : List Bytes}
    (htrail : ∀ v ∈ trail, lib.isValue v = true) (ip : IpAddr) :
    lib.isValue (extendedTrail trail ip.display) = true := by
  have hsep : lib.isValue (ascii ", ") = true := lib.isValue_visible (by decide)
  unfold extendedTrail
  cases hjoined : joinTrail trail with
  | none => exact isValue_display lib ip
  | some buffer =>
      have hbuffer := isValue_joined lib trail none htrail (fun t h => by cases h) hjoined
      exact lib.isValue_append (lib.isValue_append hbuffer hsep) (isValue_display lib ip)

private theorem applyForwarded_eq (headers : M) (client : IpAddr) (scheme : Bytes)
    (authority : Option Bytes) :
    applyForwarded lib headers client scheme authority =
      authority.elim id (fun host headers => lib.insert headers X_FORWARDED_HOST host)
        (lib.insert (lib.insertIfValue (lib.insertIfValue headers X_FORWARDED_FOR
          (extendedTrail (lib.getAll headers X_FORWARDED_FOR) client.display)) X_REAL_IP
            client.display) X_FORWARDED_PROTO scheme) := by
  unfold applyForwarded extendedTrail
  cases joinTrail (lib.getAll headers X_FORWARDED_FOR) <;> cases authority <;> rfl

theorem getAll_applyForwarded {headers : M} (client : IpAddr) (scheme : Bytes)
    (authority : Option Bytes) (name : Bytes)
    (htrail : ∀ v ∈ lib.getAll headers X_FORWARDED_FOR, lib.isValue v = true) :
    lib.getAll (applyForwarded lib headers client scheme authority) name =
      if name = X_FORWARDED_HOST ∧ authority ≠ none then authority.toList
      else if name = X_FORWARDED_PROTO then [scheme]
      else if name = X_REAL_IP then [client.display]
      else if name = X_FORWARDED_FOR then
        [extendedTrail (lib.getAll headers X_FORWARDED_FOR) client.display]
      else lib.getAll headers name := by
  have hip := isValue_display lib client
  have hfor := isValue_extendedTrail lib htrail client
  rw [applyForwarded_eq]
  cases authority with
  | none =>
      simp only [Option.elim_none, id_eq, lib.getAll_insert, lib.getAll_insertIfValue hip,
        lib.getAll_insertIfValue hfor, ne_eq, not_true, and_false, if_false]
  | some authority =>
      simp only [Option.elim_some, lib.getAll_insert, lib.getAll_insertIfValue hip,
        lib.getAll_insertIfValue hfor, ne_eq, reduceCtorEq, not_false_eq_true, and_true,
        Option.toList_some]

theorem getAll_ensureRequestId {headers : M} (hex : HexId) (hhex : lib.isValue hex.bytes = true)
    (name : Bytes) :
    lib.getAll (ensureRequestId lib headers hex).2 name =
      if name = X_REQUEST_ID ∧ (lib.getAll headers X_REQUEST_ID).headD [] = [] then [hex.bytes]
      else lib.getAll headers name := by
  have hinserted : lib.getAll (lib.insert headers X_REQUEST_ID hex.bytes) name =
      if name = X_REQUEST_ID then [hex.bytes] else lib.getAll headers name :=
    lib.getAll_insert headers X_REQUEST_ID hex.bytes name
  unfold ensureRequestId HeaderMapLib.get
  cases lib.getAll headers X_REQUEST_ID with
  | nil => simp [hhex, hinserted]
  | cons id ids =>
      cases id with
      | nil => simp [Option.filter, hhex, hinserted]
      | cons b id => simp [Option.filter]

theorem getAll_restoreUpgrade (headers : M) (protocol name : Bytes) :
    lib.getAll (restoreUpgrade lib headers protocol) name =
      if name = UPGRADE then [protocol] else if name = CONNECTION then [UPGRADE]
      else lib.getAll headers name := by
  rw [restoreUpgrade, lib.getAll_insert, lib.getAll_insert]

/-- What the hyper engine forwards under a name, from what its strip left and the protocol and the
host it took down before. -/
def sentValues (left : Bytes → List Bytes) (upgrade host : Option Bytes) (conn : ConnInfo)
    (hex : HexId) (name : Bytes) : List Bytes :=
  if name = HOST then if left HOST = [] then host.toList else left HOST
  else if name = UPGRADE ∧ upgrade ≠ none then upgrade.toList
  else if name = CONNECTION ∧ upgrade ≠ none then [UPGRADE]
  else if name = X_REQUEST_ID then
    if (left X_REQUEST_ID).headD [] = [] then [hex.bytes] else left X_REQUEST_ID
  else if name = X_FORWARDED_HOST ∧ host ≠ none then host.toList
  else if name = X_FORWARDED_PROTO then [conn.scheme.asBytes]
  else if name = X_REAL_IP then [conn.remote.display]
  else if name = X_FORWARDED_FOR then [extendedTrail (left X_FORWARDED_FOR) conn.remote.display]
  else left name

/-- The headers with their request id, before an upgrade and the host are put back. -/
private def identified (conn : ConnInfo) (request : Request M) (hex : HexId) : M :=
  (ensureRequestId lib (applyForwarded lib (stripHopByHop lib request.headers) conn.remote
    conn.scheme.asBytes (clientHost lib request)) hex).2

private def restored (conn : ConnInfo) (request : Request M) (hex : HexId) : M :=
  (upgradeProtocol lib request.headers).elim (identified lib conn request hex)
    (restoreUpgrade lib (identified lib conn request hex))

private theorem http1Headers_eq (conn : ConnInfo) (request : Request M) (hex : HexId) :
    http1Headers lib conn request hex =
      if lib.getAll (restored lib conn request hex) HOST = [] then
        (clientHost lib request).elim (restored lib conn request hex)
          (lib.insert (restored lib conn request hex) HOST)
      else restored lib conn request hex := by
  have hkey : ∀ m hosted : M, (if lib.containsKey m HOST = true then m else hosted) =
      if lib.getAll m HOST = [] then hosted else m := by
    intro m hosted
    by_cases h : lib.getAll m HOST = [] <;> simp [HeaderMapLib.containsKey, h]
  unfold http1Headers restored identified
  cases upgradeProtocol lib request.headers <;> cases clientHost lib request <;> exact hkey _ _

theorem getAll_http1Headers (conn : ConnInfo) (request : Request M) (hex : HexId)
    (hhex : lib.isValue hex.bytes = true)
    (htrail : ∀ v ∈ lib.getAll (stripHopByHop lib request.headers) X_FORWARDED_FOR,
      lib.isValue v = true) (name : Bytes) :
    lib.getAll (http1Headers lib conn request hex) name =
      sentValues (lib.getAll (stripHopByHop lib request.headers))
        (upgradeProtocol lib request.headers) (clientHost lib request) conn hex name := by
  have hforwarded : ∀ n, lib.getAll (applyForwarded lib (stripHopByHop lib request.headers)
      conn.remote conn.scheme.asBytes (clientHost lib request)) n = _ := fun n =>
    getAll_applyForwarded lib conn.remote conn.scheme.asBytes (clientHost lib request) n htrail
  have hid : ∀ n, lib.getAll (identified lib conn request hex) n = _ := fun n =>
    getAll_ensureRequestId lib hex hhex n
  have hidHeld : lib.getAll (applyForwarded lib (stripHopByHop lib request.headers) conn.remote
      conn.scheme.asBytes (clientHost lib request)) X_REQUEST_ID =
      lib.getAll (stripHopByHop lib request.headers) X_REQUEST_ID := by
    rw [hforwarded]
    simp +decide
  have hrestored : ∀ n, lib.getAll (restored lib conn request hex) n =
      if n = UPGRADE ∧ upgradeProtocol lib request.headers ≠ none then
        (upgradeProtocol lib request.headers).toList
      else if n = CONNECTION ∧ upgradeProtocol lib request.headers ≠ none then [UPGRADE]
      else lib.getAll (identified lib conn request hex) n := by
    intro n
    unfold restored
    cases upgradeProtocol lib request.headers with
    | none => simp
    | some protocol => simp [getAll_restoreUpgrade]
  have hhostHeld : lib.getAll (restored lib conn request hex) HOST =
      lib.getAll (stripHopByHop lib request.headers) HOST := by
    rw [hrestored, hid, hidHeld, hforwarded]
    simp +decide
  rw [http1Headers_eq, hhostHeld]
  unfold sentValues
  by_cases hname : name = HOST
  · subst hname
    rw [if_pos rfl]
    split
    · cases hhost : clientHost lib request with
      | none => simp_all
      | some host => simp [lib.getAll_insert]
    · exact hhostHeld
  · rw [if_neg hname]
    have hsame : lib.getAll (if lib.getAll (stripHopByHop lib request.headers) HOST = [] then
        (clientHost lib request).elim (restored lib conn request hex)
          (lib.insert (restored lib conn request hex) HOST)
        else restored lib conn request hex) name =
        lib.getAll (restored lib conn request hex) name := by
      split
      · cases clientHost lib request with
        | none => rfl
        | some host => rw [Option.elim_some, lib.getAll_insert, if_neg hname]
      · rfl
    rw [hsame, hrestored, hid, hidHeld, hforwarded]
    by_cases hidName : name = X_REQUEST_ID
    · subst hidName
      simp +decide
    · simp only [hidName, false_and, if_false]

end Sent

end Ramjet.Proxy.SentFields
