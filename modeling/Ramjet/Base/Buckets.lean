/- digest: Maps from a key to a list of values, read as one collection of keyed values. -/

import Mathlib.Data.List.Count
import Mathlib.Data.List.Perm.Basic
import Ramjet.Base.AssocMap

set_option autoImplicit false
set_option relaxedAutoImplicit false

namespace Ramjet.Base.Buckets

open Ramjet.Base.AssocMap

variable {κ β : Type}

/-- Every value of a bucketed map under its key. -/
def entries (m : Map κ (List β)) : List (κ × β) := m.flatMap fun e => e.2.map fun x => (e.1, x)

/-- Values dropped from every bucket, and the buckets they leave empty with them. -/
def sift (keep : β → Bool) (m : Map κ (List β)) : Map κ (List β) :=
  (m.map fun e => (e.1, e.2.filter keep)).filter fun e => !e.2.isEmpty

theorem nodup_sift {m : Map κ (List β)} (h : (m.map (·.1)).Nodup) (keep : β → Bool) :
    ((sift keep m).map (·.1)).Nodup := by
  have hkeys : (m.map fun e => (e.1, e.2.filter keep)).map (·.1) = m.map (·.1) := by
    rw [List.map_map]
    rfl
  have hsub : List.Sublist ((sift keep m).map (·.1))
      ((m.map fun e => (e.1, e.2.filter keep)).map (·.1)) :=
    List.Sublist.map _ List.filter_sublist
  rw [hkeys] at hsub
  exact hsub.nodup h

theorem entries_sift (keep : β → Bool) (m : Map κ (List β)) :
    entries (sift keep m) = (entries m).filter fun e => keep e.2 := by
  induction m with
  | nil => rfl
  | cons e rest ih =>
      obtain ⟨a, xs⟩ := e
      have htail : entries ((a, xs) :: rest) = (xs.map fun x => (a, x)) ++ entries rest := rfl
      rw [htail, List.filter_append, ← ih]
      have hhead : ((xs.map fun x => (a, x)).filter fun e => keep e.2) =
          (xs.filter keep).map fun x => (a, x) := by
        rw [List.filter_map]
        rfl
      rw [hhead]
      cases hempty : (xs.filter keep).isEmpty with
      | true =>
          rw [List.isEmpty_iff] at hempty
          rw [hempty]
          simp [sift, hempty]
      | false =>
          simp [sift, hempty, entries]

/-- What is dropped and what is kept are together what was held. -/
theorem entries_perm_sift (keep : β → Bool) (m : Map κ (List β)) :
    List.Perm (entries m)
      (((entries m).filter fun e => !keep e.2) ++ entries (sift keep m)) := by
  rw [entries_sift]
  exact (List.perm_append_comm.trans
    (List.filter_append_perm (fun e : κ × β => keep e.2) _)).symm

variable [DecidableEq κ]

/-- The map without the bucket of one key. -/
def without (m : Map κ (List β)) (k : κ) : Map κ (List β) := retain m (· != k)

theorem without_of_not_mem {m : Map κ (List β)} {k : κ} (h : k ∉ m.map (·.1)) :
    without m k = m := by
  unfold without retain
  rw [List.filter_eq_self]
  intro e he
  have hne : e.1 ≠ k := fun hk => h (hk ▸ List.mem_map_of_mem he)
  simpa using hne

theorem nodup_without {m : Map κ (List β)} (h : (m.map (·.1)).Nodup) (k : κ) :
    ((without m k).map (·.1)).Nodup := by
  have hsub : List.Sublist ((without m k).map (·.1)) (m.map (·.1)) :=
    List.Sublist.map _ List.filter_sublist
  exact hsub.nodup h

theorem get_without (m : Map κ (List β)) (k l : κ) :
    get (without m k) l = if l = k then none else get m l := by
  unfold without
  rw [get_retain]
  by_cases h : l = k <;> simp [h]

/-- What a map holds, with the bucket of one key brought to the front. -/
theorem entries_perm_get {m : Map κ (List β)} (h : (m.map (·.1)).Nodup) (k : κ) :
    List.Perm (entries m)
      ((((get m k).getD []).map fun x => (k, x)) ++ entries (without m k)) := by
  induction m with
  | nil => exact List.Perm.refl _
  | cons e rest ih =>
      obtain ⟨a, xs⟩ := e
      rw [List.map_cons, List.nodup_cons] at h
      by_cases ha : a = k
      · subst ha
        have hrest : without ((a, xs) :: rest) a = rest := by
          have hself := without_of_not_mem h.1
          simpa [without, retain] using hself
        rw [hrest]
        simp [entries, AssocMap.get]
      · have hcons : without ((a, xs) :: rest) k = (a, xs) :: without rest k := by
          simp [without, retain, ha]
        rw [hcons]
        simp only [entries, AssocMap.get, ha, if_false, List.flatMap_cons]
        have hih := ih h.2
        unfold entries at hih
        exact (hih.append_left _).trans (by
          rw [← List.append_assoc, ← List.append_assoc]
          exact List.perm_append_comm.append_right _)

/-- What a map holds once the bucket of one key is replaced. -/
theorem entries_perm_insert {m : Map κ (List β)} (h : (m.map (·.1)).Nodup) (k : κ)
    (xs : List β) :
    List.Perm (entries (insert m k xs))
      ((xs.map fun x => (k, x)) ++ entries (without m k)) := by
  have hget := entries_perm_get (nodup_keys_insert h k xs) k
  rw [get_insert_self, Option.getD_some] at hget
  have hwithout : without (insert m k xs) k = without m k := by
    unfold without
    exact retain_insert m (by simp) xs
  rwa [hwithout] at hget

theorem mem_entries {m : Map κ (List β)} (h : (m.map (·.1)).Nodup) (k : κ) (x : β) :
    (k, x) ∈ entries m ↔ ∃ xs, get m k = some xs ∧ x ∈ xs := by
  unfold entries
  simp only [List.mem_flatMap, List.mem_map, Prod.mk.injEq]
  constructor
  · rintro ⟨⟨a, xs⟩, he, y, hy, rfl, rfl⟩
    exact ⟨xs, get_of_mem h he, hy⟩
  · rintro ⟨xs, hget, hx⟩
    exact ⟨(k, xs), mem_of_get hget, x, hx, rfl, rfl⟩

/-- A sifted map gives each key what passes of its bucket. -/
theorem getD_sift {m : Map κ (List β)} (h : (m.map (·.1)).Nodup) (keep : β → Bool) (k : κ) :
    (get (sift keep m) k).getD [] = ((get m k).getD []).filter keep := by
  induction m with
  | nil => rfl
  | cons e rest ih =>
      obtain ⟨a, xs⟩ := e
      rw [List.map_cons, List.nodup_cons] at h
      have hrest := ih h.2
      have hmiss : get rest a = none := by
        rw [← Option.not_isSome_iff_eq_none, get_isSome_iff]
        exact h.1
      cases hempty : (xs.filter keep).isEmpty with
      | true =>
          have hsift : sift keep ((a, xs) :: rest) = sift keep rest := by simp [sift, hempty]
          rw [hsift, hrest]
          by_cases ha : a = k
          · subst ha
            rw [List.isEmpty_iff] at hempty
            simp [AssocMap.get, hmiss, hempty]
          · simp [AssocMap.get, ha]
      | false =>
          have hsift : sift keep ((a, xs) :: rest) = (a, xs.filter keep) :: sift keep rest := by
            simp [sift, hempty]
          rw [hsift]
          by_cases ha : a = k
          · simp [AssocMap.get, ha]
          · simpa [AssocMap.get, ha] using hrest

/-- Each value is held as often as the bucket of its key holds it. -/
theorem count_entries [DecidableEq β] {m : Map κ (List β)} (h : (m.map (·.1)).Nodup) (k : κ)
    (x : β) : (entries m).count (k, x) = ((get m k).getD []).count x := by
  rw [(entries_perm_get h k).count_eq, List.count_append]
  have hrest : (entries (without m k)).count (k, x) = 0 := by
    rw [List.count_eq_zero, mem_entries (nodup_without h k)]
    rintro ⟨xs, hget, -⟩
    rw [get_without, if_pos rfl] at hget
    cases hget
  have hpair : Function.Injective fun y : β => (k, y) := fun a b hab => (Prod.mk.inj hab).2
  rw [hrest, List.count_map_of_injective _ _ hpair, Nat.add_zero]

/-- A map that gives every key what a list of keyed values gives it holds just those values. -/
theorem entries_perm_of_buckets [DecidableEq β] {m : Map κ (List β)} (h : (m.map (·.1)).Nodup)
    {xs : List (κ × β)}
    (hxs : ∀ k, List.Perm ((get m k).getD []) ((xs.filter (·.1 = k)).map (·.2))) :
    List.Perm (entries m) xs := by
  rw [List.perm_iff_count]
  rintro ⟨k, x⟩
  rw [count_entries h, (hxs k).count_eq]
  clear hxs
  induction xs with
  | nil => rfl
  | cons e rest ih =>
      obtain ⟨a, y⟩ := e
      by_cases ha : a = k
      · subst ha
        simp [List.count_cons, ih]
      · simp [ha, ih]

end Ramjet.Base.Buckets
