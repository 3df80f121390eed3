/- digest: Finite maps as association lists in insertion order. -/

import Mathlib.Data.List.Basic
import Mathlib.Tactic.Common

set_option autoImplicit false
set_option relaxedAutoImplicit false

namespace Ramjet.Base.AssocMap

variable {κ ν : Type} [DecidableEq κ]

/-- A finite map, the first entry of a key being the one that counts. -/
abbrev Map (κ ν : Type) := List (κ × ν)

def get (m : Map κ ν) (k : κ) : Option ν :=
  match m with
  | [] => none
  | (a, b) :: rest => if a = k then some b else get rest k

/-- Replace the entry of a key in place, or append one. -/
def insert (m : Map κ ν) (k : κ) (v : ν) : Map κ ν :=
  match m with
  | [] => [(k, v)]
  | (a, b) :: rest => if a = k then (k, v) :: rest else (a, b) :: insert rest k v

def contains (m : Map κ ν) (k : κ) : Bool := (get m k).isSome

/-- The entries whose key passes a test. -/
def retain (m : Map κ ν) (keep : κ → Bool) : Map κ ν := m.filter fun e => keep e.1

@[simp] theorem get_nil (k : κ) : get ([] : Map κ ν) k = none := rfl

@[simp] theorem get_insert_self (m : Map κ ν) (k : κ) (v : ν) : get (insert m k v) k = some v := by
  induction m with
  | nil => simp [insert, get]
  | cons e rest ih =>
      by_cases h : e.1 = k
      · simp [insert, get, h]
      · simp [insert, get, h, ih]

theorem get_insert_of_ne (m : Map κ ν) {k l : κ} (h : l ≠ k) (v : ν) :
    get (insert m k v) l = get m l := by
  induction m with
  | nil => simp [insert, get, Ne.symm h]
  | cons e rest ih =>
      by_cases he : e.1 = k
      · simp [insert, get, he, Ne.symm h]
      · simp only [insert, he, if_false, get, ih]

theorem get_insert (m : Map κ ν) (k l : κ) (v : ν) :
    get (insert m k v) l = if l = k then some v else get m l := by
  by_cases h : l = k
  · simp [h]
  · simp [h, get_insert_of_ne m h]

theorem get_retain (m : Map κ ν) (keep : κ → Bool) (k : κ) :
    get (retain m keep) k = if keep k then get m k else none := by
  induction m with
  | nil => simp [retain]
  | cons e rest ih =>
      unfold retain at ih ⊢
      by_cases he : keep e.1
      · rw [List.filter_cons_of_pos (by exact he)]
        by_cases hk : e.1 = k
        · subst hk
          simp [get, he]
        · simp only [get, hk, if_false, ih]
      · rw [List.filter_cons_of_neg (by exact he), ih]
        by_cases hk : e.1 = k
        · subst hk
          simp [he]
        · simp [get, hk]

/-- An entry whose key is not kept leaves no trace. -/
theorem retain_insert (m : Map κ ν) {keep : κ → Bool} {k : κ} (hk : keep k = false) (v : ν) :
    retain (insert m k v) keep = retain m keep := by
  unfold retain
  induction m with
  | nil => simp [insert, hk]
  | cons e rest ih =>
      by_cases he : e.1 = k
      · subst he
        simp [insert, hk]
      · rw [insert.eq_2, if_neg he, List.filter_cons, List.filter_cons, ih]

theorem mem_of_get {m : Map κ ν} {k : κ} {v : ν} (h : get m k = some v) : (k, v) ∈ m := by
  induction m with
  | nil => simp at h
  | cons e rest ih =>
      obtain ⟨a, b⟩ := e
      by_cases ha : a = k
      · simp_all [get]
      · simp only [get, ha, if_false] at h
        exact List.mem_cons_of_mem _ (ih h)

theorem get_isSome_iff (m : Map κ ν) (k : κ) : (get m k).isSome = true ↔ k ∈ m.map (·.1) := by
  induction m with
  | nil => simp
  | cons e rest ih =>
      by_cases h : e.1 = k
      · simp [get, h]
      · simp [get, h, ih, Ne.symm h]

/-- Inserting keeps the keys apart. -/
theorem nodup_keys_insert {m : Map κ ν} (h : (m.map (·.1)).Nodup) (k : κ) (v : ν) :
    ((insert m k v).map (·.1)).Nodup := by
  have hkeys : ∀ m : Map κ ν, (insert m k v).map (·.1) =
      if k ∈ m.map (·.1) then m.map (·.1) else m.map (·.1) ++ [k] := by
    intro m
    induction m with
    | nil => simp [insert]
    | cons e rest ih =>
        by_cases he : e.1 = k
        · simp [insert, he]
        · simp only [insert, he, if_false, List.map_cons, ih, List.mem_cons, Ne.symm he, false_or]
          split <;> simp
  rw [hkeys]
  split
  · exact h
  · rename_i hk
    refine List.nodup_append.mpr ⟨h, by simp, ?_⟩
    intro a ha b hb hab
    rw [List.mem_singleton] at hb
    exact hk (hb ▸ hab ▸ ha)

theorem get_of_mem {m : Map κ ν} (h : (m.map (·.1)).Nodup) {k : κ} {v : ν} (hmem : (k, v) ∈ m) :
    get m k = some v := by
  induction m with
  | nil => simp at hmem
  | cons e rest ih =>
      obtain ⟨a, b⟩ := e
      rw [List.map_cons, List.nodup_cons] at h
      rcases List.mem_cons.mp hmem with heq | hmem
      · cases heq
        simp [get]
      · have hne : a ≠ k := fun ha => h.1 (ha ▸ List.mem_map.mpr ⟨(k, v), hmem, rfl⟩)
        simp only [get, hne, if_false]
        exact ih h.2 hmem

theorem mem_iff_get {m : Map κ ν} (h : (m.map (·.1)).Nodup) (k : κ) (v : ν) :
    (k, v) ∈ m ↔ get m k = some v := ⟨get_of_mem h, mem_of_get⟩

/-- The entries of one key, where the keys are apart. -/
theorem filter_key {m : Map κ ν} (h : (m.map (·.1)).Nodup) (k : κ) :
    m.filter (fun e => decide (e.1 = k)) = ((get m k).map fun v => (k, v)).toList := by
  induction m with
  | nil => rfl
  | cons e rest ih =>
      obtain ⟨a, b⟩ := e
      rw [List.map_cons, List.nodup_cons] at h
      by_cases ha : a = k
      · subst ha
        have hrest : get rest a = none := by
          rw [← Option.not_isSome_iff_eq_none, get_isSome_iff]
          exact h.1
        rw [List.filter_cons_of_pos (by simp), ih h.2, hrest]
        simp [get]
      · rw [List.filter_cons_of_neg (by simpa using ha), ih h.2]
        simp [get, ha]

/-- Entries with keys apart are found in whatever order they stand. -/
theorem get_perm {m m' : Map κ ν} (h : (m.map (·.1)).Nodup) (hperm : m.Perm m') (k : κ) :
    get m k = get m' k := by
  apply Option.ext
  intro v
  have h' : (m'.map (·.1)).Nodup := (hperm.map (·.1)).nodup_iff.mp h
  rw [← mem_iff_get h, ← mem_iff_get h', hperm.mem_iff]

theorem get_filter {m : Map κ ν} (h : (m.map (·.1)).Nodup) (keep : κ × ν → Bool) (k : κ) :
    get (m.filter keep) k = (get m k).filter fun v => keep (k, v) := by
  have hkeys : ((m.filter keep).map (·.1)).Nodup := h.sublist (List.filter_sublist.map _)
  apply Option.ext
  intro v
  rw [← mem_iff_get hkeys, List.mem_filter, mem_iff_get h, Option.filter_eq_some_iff]

theorem get_map {ν' : Type} (f : ν → ν') (m : Map κ ν) (k : κ) :
    get (m.map fun e => (e.1, f e.2)) k = (get m k).map f := by
  induction m with
  | nil => rfl
  | cons e rest ih =>
      by_cases he : e.1 = k
      · simp [get, he]
      · simp only [List.map_cons, get, he, if_false, ih]

section FirstClaim

/-- Insert an entry unless the key is taken. -/
def claim (m : Map κ ν) (k : κ) (v : ν) : Map κ ν :=
  if contains m k then m else insert m k v

theorem get_claim (m : Map κ ν) (k l : κ) (v : ν) :
    get (claim m k v) l = (get m l).or (if k = l then some v else none) := by
  unfold claim contains
  cases hk : get m k with
  | some held =>
      by_cases hkl : k = l
      · subst hkl
        simp [hk]
      · simp [hkl]
  | none =>
      by_cases hkl : k = l
      · subst hkl
        simp [hk]
      · simp [hkl, get_insert, Ne.symm hkl]

theorem nodup_keys_claim {m : Map κ ν} (h : (m.map (·.1)).Nodup) (k : κ) (v : ν) :
    ((claim m k v).map (·.1)).Nodup := by
  unfold claim
  split
  · exact h
  · exact nodup_keys_insert h k v

variable {α : Type} (key : α → κ) (value : α → ν)

/-- Claims made one after the other: the first one on a key holds it. -/
def claimEach (m : Map κ ν) (xs : List α) : Map κ ν :=
  xs.foldl (fun m x => claim m (key x) (value x)) m

theorem get_claimEach (xs : List α) (m : Map κ ν) (k : κ) :
    get (claimEach key value m xs) k =
      (get m k).or ((xs.find? fun x => key x = k).map value) := by
  induction xs generalizing m with
  | nil => simp [claimEach]
  | cons x xs ih =>
      have hstep : claimEach key value m (x :: xs) =
          claimEach key value (claim m (key x) (value x)) xs := rfl
      rw [hstep, ih, get_claim, List.find?_cons]
      by_cases hx : key x = k
      · cases get m k <;> simp [hx]
      · simp [hx]

theorem nodup_keys_claimEach (xs : List α) {m : Map κ ν} (h : (m.map (·.1)).Nodup) :
    ((claimEach key value m xs).map (·.1)).Nodup := by
  induction xs generalizing m with
  | nil => exact h
  | cons x xs ih => exact ih (nodup_keys_claim h (key x) (value x))

end FirstClaim

end Ramjet.Base.AssocMap
