/- digest: Two finite maps compared entry by entry, from either side. -/

import Mathlib.Data.List.Nodup
import Mathlib.Data.List.Perm.Basic
import Ramjet.Base.AssocMap

set_option autoImplicit false
set_option relaxedAutoImplicit false

namespace Ramjet.Base.Comparison

open Ramjet.Base.AssocMap

variable {κ ν : Type} [DecidableEq κ]

section Collecting

/-- A map of keyed values; of two under one key the later stays. -/
def collect (xs : List (κ × ν)) : Map κ ν := xs.foldl (fun m e => insert m e.1 e.2) []

private theorem nodup_foldl_insert (xs : List (κ × ν)) {m : Map κ ν} (h : (m.map (·.1)).Nodup) :
    ((xs.foldl (fun m e => insert m e.1 e.2) m).map (·.1)).Nodup := by
  induction xs generalizing m with
  | nil => exact h
  | cons e rest ih => exact ih (nodup_keys_insert h e.1 e.2)

theorem nodup_collect (xs : List (κ × ν)) : ((collect xs).map (·.1)).Nodup :=
  nodup_foldl_insert xs List.nodup_nil

private theorem get_foldl_insert (xs : List (κ × ν)) (m : Map κ ν) (k : κ) :
    get (xs.foldl (fun m e => insert m e.1 e.2) m) k =
      ((xs.reverse.find? fun e => e.1 = k).map (·.2)).or (get m k) := by
  induction xs generalizing m with
  | nil => rfl
  | cons e rest ih =>
      rw [List.foldl_cons, ih, List.reverse_cons, List.find?_append, get_insert]
      cases rest.reverse.find? fun e => e.1 = k with
      | some found => rfl
      | none =>
          by_cases hk : e.1 = k
          · simp [hk]
          · simp [hk, Ne.symm hk]

/-- What is found in a collected map was collected. -/
theorem mem_of_get_collect {xs : List (κ × ν)} {k : κ} {v : ν} (h : get (collect xs) k = some v) :
    (k, v) ∈ xs := by
  rw [collect, get_foldl_insert, get_nil, Option.or_none, Option.map_eq_some_iff] at h
  obtain ⟨e, he, rfl⟩ := h
  have hkey : e.1 = k := by simpa using List.find?_some he
  rw [← hkey]
  exact List.mem_reverse.mp (List.mem_of_find?_eq_some he)

theorem get_collect_isSome_iff (xs : List (κ × ν)) (k : κ) :
    (get (collect xs) k).isSome = true ↔ ∃ v, (k, v) ∈ xs := by
  constructor
  · intro h
    obtain ⟨v, hv⟩ := Option.isSome_iff_exists.mp h
    exact ⟨v, mem_of_get_collect hv⟩
  · rintro ⟨v, hmem⟩
    rw [collect, get_foldl_insert, get_nil, Option.or_none, Option.isSome_map, List.find?_isSome]
    exact ⟨(k, v), List.mem_reverse.mpr hmem, by simp⟩

/-- Where each key has one value, a collected map holds just the values collected. -/
theorem get_collect_iff {xs : List (κ × ν)}
    (hone : ∀ e ∈ xs, ∀ e' ∈ xs, e.1 = e'.1 → e.2 = e'.2) (k : κ) (v : ν) :
    get (collect xs) k = some v ↔ (k, v) ∈ xs := by
  constructor
  · exact mem_of_get_collect
  · intro hmem
    obtain ⟨v', hv'⟩ :=
      Option.isSome_iff_exists.mp ((get_collect_isSome_iff xs k).mpr ⟨v, hmem⟩)
    have hsame : v' = v := hone (k, v') (mem_of_get_collect hv') (k, v) hmem rfl
    rw [hv', hsame]

end Collecting

section Comparing

/-- The entries of one map whose keys another does not have. -/
def onlyIn (m other : Map κ ν) : List (κ × ν) := m.filter fun e => !contains other e.1

theorem onlyIn_cons (e : κ × ν) (rest other : Map κ ν) :
    onlyIn (e :: rest) other =
      if contains other e.1 then onlyIn rest other else e :: onlyIn rest other := by
  cases hkept : contains other e.1 <;> simp [onlyIn, hkept]

/-- The keys of two maps, with what each holds under them. -/
def common (before after : Map κ ν) : List (κ × ν × ν) :=
  after.filterMap fun e => (get before e.1).map fun was => (e.1, was, e.2)

def turned (c : κ × ν × ν) : κ × ν × ν := (c.1, c.2.2, c.2.1)

variable {before after : Map κ ν}

theorem mem_onlyIn {m other : Map κ ν} {e : κ × ν} :
    e ∈ onlyIn m other ↔ e ∈ m ∧ get other e.1 = none := by
  simp [onlyIn, contains]

theorem mem_common (hafter : (after.map (·.1)).Nodup) {c : κ × ν × ν} :
    c ∈ common before after ↔ get before c.1 = some c.2.1 ∧ get after c.1 = some c.2.2 := by
  obtain ⟨k, was, now⟩ := c
  unfold common
  rw [List.mem_filterMap]
  constructor
  · rintro ⟨e, he, hmap⟩
    obtain ⟨held, hheld, heq⟩ := Option.map_eq_some_iff.mp hmap
    cases heq
    exact ⟨hheld, get_of_mem hafter he⟩
  · rintro ⟨hwas, hnow⟩
    have hget : get before k = some was := hwas
    exact ⟨(k, now), mem_of_get hnow, by rw [hget]; rfl⟩

theorem nodup_common (hafter : (after.map (·.1)).Nodup) : (common before after).Nodup := by
  apply List.Nodup.filterMap _ (List.Nodup.of_map _ hafter)
  rintro ⟨k, now⟩ ⟨k', now'⟩ c hc hc'
  obtain ⟨was, -, rfl⟩ := Option.map_eq_some_iff.mp hc
  obtain ⟨was', -, heq⟩ := Option.map_eq_some_iff.mp hc'
  cases heq
  rfl

variable (before) in
theorem nodup_common_keys (hafter : (after.map (·.1)).Nodup) :
    ((common before after).map (·.1)).Nodup := by
  apply List.Nodup.map_on _ (nodup_common hafter)
  rintro ⟨k, was, now⟩ hc ⟨k', was', now'⟩ hc' rfl
  obtain ⟨hwas, hnow⟩ := (mem_common hafter).mp hc
  obtain ⟨hwas', hnow'⟩ := (mem_common hafter).mp hc'
  have hsame : was = was' := Option.some.inj (hwas.symm.trans hwas')
  have hsame' : now = now' := Option.some.inj (hnow.symm.trans hnow')
  rw [hsame, hsame']

/-- Compared from the other side, the keys of both maps are the same with the sides exchanged. -/
theorem common_turned (hbefore : (before.map (·.1)).Nodup) (hafter : (after.map (·.1)).Nodup) :
    List.Perm (common after before) ((common before after).map turned) := by
  have hinj : Function.Injective (turned (κ := κ) (ν := ν)) := by
    rintro ⟨k, a, b⟩ ⟨k', a', b'⟩ h
    cases h
    rfl
  rw [List.perm_ext_iff_of_nodup (nodup_common hbefore) ((nodup_common hafter).map hinj)]
  rintro ⟨k, a, b⟩
  rw [mem_common hbefore, List.mem_map]
  constructor
  · rintro ⟨ha, hb⟩
    exact ⟨(k, b, a), (mem_common hafter).mpr ⟨hb, ha⟩, rfl⟩
  · rintro ⟨⟨k', a', b'⟩, hmem, heq⟩
    cases heq
    obtain ⟨ha, hb⟩ := (mem_common hafter).mp hmem
    exact ⟨hb, ha⟩

/-- What one entry of a map comes to, held against another map. -/
def against {β : Type} (before : Map κ ν) (fresh : κ × ν → List β) (both : κ × ν × ν → List β)
    (e : κ × ν) : List β :=
  match get before e.1 with
  | none => fresh e
  | some was => both (e.1, was, e.2)

/-- A pass over the new map is one over its new keys and one over the keys of both. -/
theorem flatMap_against {β : Type} (before after : Map κ ν) (fresh : κ × ν → List β)
    (both : κ × ν × ν → List β) :
    List.Perm (after.flatMap (against before fresh both))
      ((onlyIn after before).flatMap fresh ++ (common before after).flatMap both) := by
  induction after with
  | nil => exact List.Perm.refl _
  | cons e rest ih =>
      rw [List.flatMap_cons, against]
      cases hget : get before e.1 with
      | none =>
          have honly : onlyIn (e :: rest) before = e :: onlyIn rest before := by
            simp [onlyIn, contains, hget]
          have hcommon : common before (e :: rest) = common before rest := by
            simp [common, hget]
          rw [honly, hcommon, List.flatMap_cons, List.append_assoc]
          exact ih.append_left _
      | some was =>
          have honly : onlyIn (e :: rest) before = onlyIn rest before := by
            simp [onlyIn, contains, hget]
          have hcommon : common before (e :: rest) = (e.1, was, e.2) :: common before rest := by
            simp [common, hget]
          rw [honly, hcommon, List.flatMap_cons]
          refine (ih.append_left _).trans ?_
          rw [← List.append_assoc, ← List.append_assoc]
          exact List.perm_append_comm.append_right _

theorem flatMap_fresh {β : Type} (before after : Map κ ν) (f : κ × ν → β) :
    List.Perm (after.flatMap (against before (fun e => [f e]) fun _ => []))
      ((onlyIn after before).map f) := by
  have hnone : (common before after).flatMap (fun _ => ([] : List β)) = [] :=
    List.flatMap_eq_nil_iff.mpr fun _ _ => rfl
  have hsplit := flatMap_against before after (fun e => [f e]) fun _ => []
  rwa [hnone, List.append_nil, ← List.map_eq_flatMap] at hsplit

theorem flatMap_both {β : Type} (before after : Map κ ν) (both : κ × ν × ν → List β) :
    List.Perm (after.flatMap (against before (fun _ => []) both))
      ((common before after).flatMap both) := by
  have hnone : (onlyIn after before).flatMap (fun _ => ([] : List β)) = [] :=
    List.flatMap_eq_nil_iff.mpr fun _ _ => rfl
  have hsplit := flatMap_against before after (fun _ => []) both
  rwa [hnone, List.nil_append] at hsplit

/-- Two maps agree where neither has a key of its own and both hold the same under each. -/
theorem agree_iff (hbefore : (before.map (·.1)).Nodup) (hafter : (after.map (·.1)).Nodup) :
    (∀ k, get before k = get after k) ↔
      onlyIn after before = [] ∧ onlyIn before after = [] ∧
        ∀ c ∈ common before after, c.2.1 = c.2.2 := by
  constructor
  · intro hagree
    refine ⟨?_, ?_, ?_⟩
    · rw [List.eq_nil_iff_forall_not_mem]
      rintro ⟨k, v⟩ he
      obtain ⟨hmem, hnone⟩ := mem_onlyIn.mp he
      have hget := hagree k
      rw [get_of_mem hafter hmem, hnone] at hget
      cases hget
    · rw [List.eq_nil_iff_forall_not_mem]
      rintro ⟨k, v⟩ he
      obtain ⟨hmem, hnone⟩ := mem_onlyIn.mp he
      have hget := hagree k
      rw [get_of_mem hbefore hmem, hnone] at hget
      cases hget
    · intro c hc
      obtain ⟨hwas, hnow⟩ := (mem_common hafter).mp hc
      rw [hagree c.1, hnow] at hwas
      exact (Option.some.inj hwas).symm
  · rintro ⟨hfresh, hgone, hsame⟩ k
    cases hwas : get before k with
    | none =>
        cases hnow : get after k with
        | none => rfl
        | some now =>
            have hmem : (k, now) ∈ onlyIn after before := mem_onlyIn.mpr ⟨mem_of_get hnow, hwas⟩
            rw [hfresh] at hmem
            cases hmem
    | some was =>
        cases hnow : get after k with
        | none =>
            have hmem : (k, was) ∈ onlyIn before after := mem_onlyIn.mpr ⟨mem_of_get hwas, hnow⟩
            rw [hgone] at hmem
            cases hmem
        | some now =>
            have heq := hsame (k, was, now) ((mem_common hafter).mpr ⟨hwas, hnow⟩)
            exact congrArg some heq

end Comparing

section Spelling

variable {σ : Type} {spell : σ → κ} (plain : σ → Prop) {f g : σ → Option ν} {m m' : Map κ ν}

private theorem held_of_agree
    (hinj : ∀ s s', plain s → plain s' → spell s = spell s' → s = s')
    (hf : ∀ s v, f s = some v → plain s) (hg : ∀ s v, g s = some v → plain s)
    (hm : ∀ k v, get m k = some v ↔ ∃ s, spell s = k ∧ f s = some v)
    (hm' : ∀ k v, get m' k = some v ↔ ∃ s, spell s = k ∧ g s = some v)
    (hagree : ∀ k, get m k = get m' k) {s : σ} {v : ν} (h : f s = some v) : g s = some v := by
  have hget : get m (spell s) = some v := (hm _ _).mpr ⟨s, rfl, h⟩
  rw [hagree] at hget
  obtain ⟨s', hspell, hs'⟩ := (hm' _ _).mp hget
  rwa [hinj s s' (hf s v h) (hg s' v hs') hspell.symm]

/-- Maps keyed by how things are spelled agree just where they hold the same of each thing. -/
theorem agree_spelled_iff
    (hinj : ∀ s s', plain s → plain s' → spell s = spell s' → s = s')
    (hf : ∀ s v, f s = some v → plain s) (hg : ∀ s v, g s = some v → plain s)
    (hm : ∀ k v, get m k = some v ↔ ∃ s, spell s = k ∧ f s = some v)
    (hm' : ∀ k v, get m' k = some v ↔ ∃ s, spell s = k ∧ g s = some v) :
    (∀ k, get m k = get m' k) ↔ ∀ s, f s = g s := by
  constructor
  · intro hagree s
    apply Option.ext
    intro v
    exact ⟨held_of_agree plain hinj hf hg hm hm' hagree,
      held_of_agree plain hinj hg hf hm' hm fun k => (hagree k).symm⟩
  · intro hsame k
    apply Option.ext
    intro v
    rw [hm, hm']
    simp only [hsame]

end Spelling

end Ramjet.Base.Comparison
