/- digest: What the proxy relies on of the header map its HTTP library hands it. -/

import Ramjet.Engine.Codec.MessageHead

set_option autoImplicit false
set_option relaxedAutoImplicit false

namespace Ramjet.Proxy.HeaderMap

open Ramjet.Base.Octets
open Ramjet.Engine.Codec.MessageHead

/-- A name in the one case a header map keeps names in. -/
def lowerName (name : Bytes) : Bytes := name.map toAsciiLowercase

/-- A header value in visible ASCII, tabs included: one that can be read as a string slice. -/
def isVisible (value : Bytes) : Bool := value.all fun b => (0x20 ≤ b && b < 0x7f) || b == 9

/-- The values that came under a name, in their order. -/
def values (fields : List (Bytes × Bytes)) (name : Bytes) : List Bytes :=
  (named fields name).map (·.2)

/-- A map from field names to the values that came under each, as the library documents it. Names
are looked up in lower case. -/
structure HeaderMapLib (M : Type) where
  /-- The name some octets spell, if they spell one. -/
  nameOf : Bytes → Option Bytes
  /-- Whether some octets are a field value. -/
  isValue : Bytes → Bool
  getAll : M → Bytes → List Bytes
  /-- Puts one value in the place of all that were there. -/
  insert : M → Bytes → Bytes → M
  /-- Takes out every value of a name, and gives back the first of them. -/
  remove : M → Bytes → Option Bytes × M
  nameOf_lower : ∀ {token name : Bytes}, nameOf token = some name → name = lowerName token
  nameOf_congr : ∀ {token other : Bytes}, lowerName token = lowerName other →
    nameOf token = nameOf other
  isValue_visible : ∀ {value : Bytes}, isVisible value = true → isValue value = true
  isValue_append : ∀ {value other : Bytes}, isValue value = true → isValue other = true →
    isValue (value ++ other) = true
  getAll_insert : ∀ (m : M) (name value other : Bytes),
    getAll (insert m name value) other = if other = name then [value] else getAll m other
  remove_fst : ∀ (m : M) (name : Bytes), (remove m name).1 = (getAll m name).head?
  getAll_remove : ∀ (m : M) (name other : Bytes),
    getAll (remove m name).2 other = if other = name then [] else getAll m other

namespace HeaderMapLib

variable {M : Type} (lib : HeaderMapLib M)

/-- The first value of a name. -/
def get (m : M) (name : Bytes) : Option Bytes := (lib.getAll m name).head?

def containsKey (m : M) (name : Bytes) : Bool := !(lib.getAll m name).isEmpty

/-- A value inserted where it is one. -/
def insertIfValue (m : M) (name value : Bytes) : M :=
  if lib.isValue value then lib.insert m name value else m

/-- The map the library makes of a parsed head: under each name its values, in their order. -/
def Carries (m : M) (fields : List (Bytes × Bytes)) : Prop :=
  ∀ name, lib.getAll m (lowerName name) = values fields name

/-- The library reads every field of a head as one. -/
def Accepts (fields : List (Bytes × Bytes)) : Prop :=
  ∀ f ∈ fields, (lib.nameOf f.1).isSome ∧ lib.isValue f.2 = true

theorem getAll_insertIfValue {value : Bytes} (hvalue : lib.isValue value = true) (m : M)
    (name other : Bytes) :
    lib.getAll (lib.insertIfValue m name value) other =
      if other = name then [value] else lib.getAll m other := by
  rw [insertIfValue, if_pos hvalue, lib.getAll_insert]

/-- Taking out several names leaves the others as they were. -/
theorem getAll_removeAll (names : List Bytes) (m : M) (name : Bytes) :
    lib.getAll (names.foldl (fun m n => (lib.remove m n).2) m) name =
      if name ∈ names then [] else lib.getAll m name := by
  induction names generalizing m with
  | nil => rfl
  | cons n names ih =>
      rw [List.foldl_cons, ih, lib.getAll_remove]
      by_cases hname : name = n
      · simp [hname]
      · simp [hname]

end HeaderMapLib

theorem eqIgnoreAsciiCase_iff {a b : Bytes} :
    eqIgnoreAsciiCase a b = true ↔ lowerName a = lowerName b := by
  simp [eqIgnoreAsciiCase, lowerName]

theorem header_eq (head : Head) (buf name : Bytes) :
    head.header buf name = (values (head.iter buf) name).head? := by
  rw [Head.header, values, named, List.head?_map, List.head?_filter]

/-- What holds of the 256 octets holds of every octet. -/
theorem forall_octet {p : UInt8 → Prop} (h : ∀ n < 256, p (UInt8.ofNat n)) (b : UInt8) :
    p b := by
  have hb := h b.toNat b.toNat_lt
  rwa [UInt8.ofNat_toNat] at hb

private theorem lower_lower (b : UInt8) :
    toAsciiLowercase (toAsciiLowercase b) = toAsciiLowercase b :=
  forall_octet (p := fun b => toAsciiLowercase (toAsciiLowercase b) = toAsciiLowercase b)
    (by decide +kernel) b

private theorem isTchar_lower (b : UInt8) : isTchar (toAsciiLowercase b) = isTchar b :=
  forall_octet (p := fun b => isTchar (toAsciiLowercase b) = isTchar b) (by decide +kernel) b

theorem lowerName_lowerName (name : Bytes) : lowerName (lowerName name) = lowerName name := by
  simp [lowerName, lower_lower]

section Listed

private theorem isToken_congr {token other : Bytes} (h : lowerName token = lowerName other) :
    (!token.isEmpty && token.all isTchar) = (!other.isEmpty && other.all isTchar) := by
  have hall : ∀ t : Bytes, (lowerName t).all isTchar = t.all isTchar := by
    intro t
    induction t with
    | nil => rfl
    | cons b t ih =>
        simp only [lowerName, List.map_cons, List.all_cons, isTchar_lower] at ih ⊢
        rw [ih]
  have hempty : ∀ t : Bytes, (lowerName t).isEmpty = t.isEmpty := by
    intro t
    simp [lowerName]
  rw [← hall token, ← hall other, ← hempty token, ← hempty other, h]

private theorem isControl_of_visible {b : UInt8}
    (h : ((0x20 ≤ b && b < 0x7f) || b == 9) = true) : isControl b = false :=
  forall_octet (p := fun b => ((0x20 ≤ b && b < 0x7f) || b == 9) = true → isControl b = false)
    (by decide +kernel) b h

/-- A header map held as the list of its fields. -/
def listMap : HeaderMapLib (List (Bytes × Bytes)) where
  nameOf token := if !token.isEmpty && token.all isTchar then some (lowerName token) else none
  isValue value := !value.any isControl
  getAll m name := (m.filter fun f => f.1 == name).map (·.2)
  insert m name value := m.filter (fun f => f.1 != name) ++ [(name, value)]
  remove m name :=
    (((m.filter fun f => f.1 == name).map (·.2)).head?, m.filter fun f => f.1 != name)
  nameOf_lower := by
    intro token name h
    split at h
    · exact (Option.some.inj h).symm
    · cases h
  nameOf_congr := by
    intro token other h
    simp only [isToken_congr h, h]
  isValue_visible := by
    intro value h
    rw [Bool.not_eq_true', List.any_eq_false]
    intro b hb
    rw [isControl_of_visible (List.all_eq_true.mp h b hb)]
    exact Bool.false_ne_true
  isValue_append := by
    intro value other h h'
    simp only [List.any_append, Bool.not_or, Bool.and_eq_true]
    exact ⟨h, h'⟩
  getAll_insert := by
    intro m name value other
    rw [List.filter_append, List.map_append, List.filter_filter]
    by_cases hname : other = name
    · subst hname
      simp
    · have hkeep : ∀ f : Bytes × Bytes, (f.1 == other && f.1 != name) = (f.1 == other) := by
        intro f
        by_cases hf : f.1 = other <;> simp_all
      have hother : (name == other) = false := by simpa using Ne.symm hname
      simp only [hkeep, List.filter_cons, hother, if_neg hname]
      simp
  remove_fst _ _ := rfl
  getAll_remove := by
    intro m name other
    rw [List.filter_filter]
    by_cases hname : other = name
    · subst hname
      simp
    · have hkeep : ∀ f : Bytes × Bytes, (f.1 == other && f.1 != name) = (f.1 == other) := by
        intro f
        by_cases hf : f.1 = other <;> simp_all
      simp only [hkeep, if_neg hname]

/-- The fields of a head, as the list keeps them. -/
def listed (fields : List (Bytes × Bytes)) : List (Bytes × Bytes) :=
  fields.map fun f => (lowerName f.1, f.2)

theorem carries_listed (fields : List (Bytes × Bytes)) :
    listMap.Carries (listed fields) fields := by
  intro name
  induction fields with
  | nil => rfl
  | cons f fields ih =>
      simp only [listMap, listed, values, named, List.map_cons, List.filter_cons] at ih ⊢
      by_cases hname : lowerName f.1 = lowerName name
      · have hsame : eqIgnoreAsciiCase f.1 name = true := eqIgnoreAsciiCase_iff.mpr hname
        simp only [hname, hsame, beq_self_eq_true, if_true, List.map_cons, ih]
      · have hother : ¬ eqIgnoreAsciiCase f.1 name = true := fun h =>
          hname (eqIgnoreAsciiCase_iff.mp h)
        have hbeq : ¬ (lowerName f.1 == lowerName name) = true := by simpa using hname
        simp only [if_neg hother, if_neg hbeq, ih]

end Listed

end Ramjet.Proxy.HeaderMap
