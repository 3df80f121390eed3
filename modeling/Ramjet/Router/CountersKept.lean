/- digest: Counters across any chain of rebuilds: balanced by their guards, carried, never shared. -/

import Mathlib.Data.List.Count
import Mathlib.Data.List.Nodup
import Mathlib.Data.List.Perm.Basic
import Ramjet.Router.Counters
import Ramjet.Router.RouteNumbers

set_option autoImplicit false
set_option relaxedAutoImplicit false

namespace Ramjet.Router.CountersKept

open Ramjet.Base.Octets
open Ramjet.Base.AssocMap
open Ramjet.Base.Machine
open Ramjet.Base.Net
open Ramjet.Router.Balancing
open Ramjet.Router.Rule
open Ramjet.Router.Table
open Ramjet.Router.Builder
open Ramjet.Router.BuiltTable
open Ramjet.Router.Stats
open Ramjet.Router.Counters
open Ramjet.Router.RouteNumbers

section Positions

variable {α : Type} [BEq α] [LawfulBEq α]

theorem idxOf?_of_nodup {xs : List α} (h : xs.Nodup) {i : Nat} {x : α} (hx : xs[i]? = some x) :
    xs.idxOf? x = some i := by
  obtain ⟨hi, hget⟩ := List.getElem?_eq_some_iff.mp hx
  rw [List.idxOf?_eq_some_iff]
  refine ⟨hi, hget, ?_⟩
  intro j hj heq
  have hji : j = i := (List.Nodup.getElem_inj_iff h).mp (heq.trans hget.symm)
  omega

theorem getElem?_of_idxOf? {xs : List α} {i : Nat} {x : α} (h : xs.idxOf? x = some i) :
    xs[i]? = some x := by
  obtain ⟨hi, hget, -⟩ := List.idxOf?_eq_some_iff.mp h
  rw [List.getElem?_eq_getElem hi, hget]

theorem idxOf?_of_mem {xs : List α} {x : α} (h : x ∈ xs) : ∃ i, xs.idxOf? x = some i :=
  Option.isSome_iff_exists.mp (List.isSome_idxOf?.mpr h)

/-- An element appended behind others is found behind them. -/
theorem idxOf?_snoc_self {xs : List α} {x : α} (hx : x ∉ xs) :
    (xs ++ [x]).idxOf? x = some xs.length := by
  induction xs with
  | nil => simp [List.idxOf?_cons]
  | cons z zs ih =>
      rw [List.mem_cons, not_or] at hx
      rw [List.cons_append, List.idxOf?_cons, ih hx.2]
      simp [Ne.symm hx.1]

theorem idxOf?_snoc_of_ne {xs : List α} {x y : α} (hy : y ≠ x) :
    (xs ++ [x]).idxOf? y = xs.idxOf? y := by
  induction xs with
  | nil => simp [List.idxOf?_cons, Ne.symm hy]
  | cons z zs ih => rw [List.cons_append, List.idxOf?_cons, ih, List.idxOf?_cons]

end Positions

section Carrying

/-- A slot with a counter for each of its addresses, all of them among the first `n`. -/
structure SlotOk (n : Nat) (slot : BackendSlot) : Prop where
  parallel : slot.inflight.length = slot.addrs.length
  allocated : ∀ r ∈ slot.inflight, r < n

theorem SlotOk.mono {m n : Nat} {slot : BackendSlot} (h : SlotOk m slot) (hle : m ≤ n) :
    SlotOk n slot where
  parallel := h.parallel
  allocated := fun r hr => Nat.lt_of_lt_of_le (h.allocated r hr) hle

theorem carriedCounter_lt {n : Nat} {old : Option BackendSlot} (hold : ∀ prev ∈ old, SlotOk n prev)
    {addr : SocketAddr} {r : Ref} (h : carriedCounter old addr = some r) : r < n := by
  obtain ⟨prev, hprev, h⟩ := Option.bind_eq_some_iff.mp h
  obtain ⟨i, -, h⟩ := Option.bind_eq_some_iff.mp h
  exact (hold prev hprev).allocated r (List.mem_of_getElem? h)

/-- What carrying counters over a list of addresses makes: a counter for each, the surviving ones
kept, and the others fresh and at zero. -/
structure Carried (old : Option BackendSlot) (addrs : List SocketAddr) (cells : List Nat)
    (refs : List Ref) (after : List Nat) : Prop where
  grown : ∃ k, after = cells ++ List.replicate k 0
  parallel : refs.length = addrs.length
  allocated : ∀ r ∈ refs, r < after.length
  kept : ∀ (j : Nat) (addr : SocketAddr) (r : Ref), addrs[j]? = some addr →
    carriedCounter old addr = some r → refs[j]? = some r

theorem carryCounters_carried {old : Option BackendSlot} {addrs : List SocketAddr}
    {cells : List Nat} (hold : ∀ prev ∈ old, SlotOk cells.length prev) :
    Carried old addrs cells (carryCounters old addrs cells).1 (carryCounters old addrs cells).2 := by
  induction addrs generalizing cells with
  | nil =>
      refine ⟨⟨0, ?_⟩, rfl, fun r hr => (List.not_mem_nil hr).elim, ?_⟩
      · rw [carryCounters, List.replicate_zero, List.append_nil]
      · intro j addr r hj
        simp at hj
  | cons addr rest ih =>
      cases hcarried : carriedCounter old addr with
      | some r =>
          obtain ⟨⟨k, hgrown⟩, hparallel, hallocated, hkept⟩ := ih hold
          simp only [carryCounters, hcarried]
          refine ⟨⟨k, hgrown⟩, by simp [hparallel], ?_, ?_⟩
          · intro s hs
            rcases List.mem_cons.mp hs with rfl | hs
            · have hlt := carriedCounter_lt hold hcarried
              rw [hgrown, List.length_append]
              exact Nat.lt_of_lt_of_le hlt (Nat.le_add_right _ _)
            · exact hallocated s hs
          · intro j addr' r' hj hr'
            cases j with
            | zero =>
                obtain rfl : addr = addr' := by simpa using hj
                rw [hcarried] at hr'
                exact hr'
            | succ j => exact hkept j addr' r' (by simpa using hj) hr'
      | none =>
          have hlen : cells.length ≤ (cells ++ [0]).length := by
            rw [List.length_append]
            omega
          obtain ⟨⟨k, hgrown⟩, hparallel, hallocated, hkept⟩ :=
            ih fun prev hprev => (hold prev hprev).mono hlen
          simp only [carryCounters, hcarried]
          refine ⟨⟨k + 1, ?_⟩, by simp [hparallel], ?_, ?_⟩
          · rw [hgrown, List.append_assoc, List.replicate_succ]
            rfl
          · intro s hs
            rcases List.mem_cons.mp hs with rfl | hs
            · rw [hgrown, List.length_append, List.length_append, List.length_singleton]
              exact Nat.lt_of_lt_of_le (Nat.lt_succ_self _) (Nat.le_add_right _ _)
            · exact hallocated s hs
          · intro j addr' r' hj hr'
            cases j with
            | zero =>
                obtain rfl : addr = addr' := by simpa using hj
                rw [hcarried] at hr'
                cases hr'
            | succ j => exact hkept j addr' r' (by simpa using hj) hr'

/-- What rebuilding one slot makes of the slot its backend had. -/
structure Rebuilt (old : Option BackendSlot) (addrs : List SocketAddr) (a : Arena)
    (slot : BackendSlot) (after : Arena) : Prop where
  grown : ∃ k, after.inflight = a.inflight ++ List.replicate k 0
  blocks : after.blocks = a.blocks
  listed : slot.addrs = addrs
  ok : SlotOk after.inflight.length slot
  kept : ∀ (j : Nat) (addr : SocketAddr) (r : Ref), addrs[j]? = some addr →
    carriedCounter old addr = some r → slot.inflight[j]? = some r

theorem rebuildSlot_rebuilt {old : Option BackendSlot} {addrs : List SocketAddr} {a : Arena}
    (hold : ∀ prev ∈ old, SlotOk a.inflight.length prev) (hdistinct : addrs.Nodup) :
    Rebuilt old addrs a (rebuildSlot old addrs a).1 (rebuildSlot old addrs a).2 := by
  have hmoved : Rebuilt old addrs a (movedSlot old addrs a).1 (movedSlot old addrs a).2 := by
    have hcarried : Carried old addrs a.inflight (carryCounters old addrs a.inflight).1
        (carryCounters old addrs a.inflight).2 := carryCounters_carried hold
    obtain ⟨hgrown, hparallel, hallocated, hkept⟩ := hcarried
    exact ⟨hgrown, rfl, rfl, ⟨hparallel, hallocated⟩, hkept⟩
  cases old with
  | none => exact hmoved
  | some prev =>
      by_cases hsame : prev.addrs = addrs
      · have hwhole : rebuildSlot (some prev) addrs a = (prev, a) := if_pos hsame
        rw [hwhole]
        refine ⟨⟨0, ?_⟩, rfl, hsame, hold prev rfl, ?_⟩
        · rw [List.replicate_zero, List.append_nil]
        · intro j addr r hj hr
          rw [carriedCounter, Option.bind_some] at hr
          obtain ⟨i, hi, hr⟩ := Option.bind_eq_some_iff.mp hr
          rw [hsame, idxOf?_of_nodup hdistinct hj, Option.some.injEq] at hi
          rw [hi]
          exact hr
      · have hmove : rebuildSlot (some prev) addrs a = movedSlot (some prev) addrs a :=
          if_neg hsame
        rw [hmove]
        exact hmoved

/-- The slots of a slab are those of the backends it was built for, found again by name. -/
structure StatsOk (specs : List (Bytes × List SocketAddr)) (stats : BackendStats) (n : Nat) :
    Prop where
  length : stats.slots.length = specs.length
  listed : ∀ (i : Nat) (spec : Bytes × List SocketAddr) (slot : BackendSlot),
    specs[i]? = some spec → stats.slots[i]? = some slot → slot.addrs = spec.2
  ok : ∀ slot ∈ stats.slots, SlotOk n slot
  byName : ∀ name, get stats.byName name =
    ((specs.map (·.1)).idxOf? name).bind fun i => stats.slots[i]?

/-- Every slot keeps the counters its backend had. -/
def SlotsCarried (previous : Option BackendStats) (specs : List (Bytes × List SocketAddr))
    (stats : BackendStats) : Prop :=
  ∀ (i : Nat) (spec : Bytes × List SocketAddr) (slot : BackendSlot),
    specs[i]? = some spec → stats.slots[i]? = some slot →
    ∀ (j : Nat) (addr : SocketAddr) (r : Ref), spec.2[j]? = some addr →
      carriedCounter (previous.bind fun p => get p.byName spec.1) addr = some r →
      slot.inflight[j]? = some r

theorem StatsOk.mono {specs : List (Bytes × List SocketAddr)} {stats : BackendStats} {m n : Nat}
    (h : StatsOk specs stats m) (hle : m ≤ n) : StatsOk specs stats n where
  length := h.length
  listed := h.listed
  ok := fun slot hslot => (h.ok slot hslot).mono hle
  byName := h.byName

private theorem getElem?_snoc {α : Type} {xs : List α} {x y : α} {i : Nat}
    (h : (xs ++ [x])[i]? = some y) : xs[i]? = some y ∨ i = xs.length ∧ x = y := by
  by_cases hi : i < xs.length
  · rw [List.getElem?_append_left hi] at h
    exact .inl h
  · rw [List.getElem?_append_right (by omega)] at h
    obtain ⟨hlt, hget⟩ := List.getElem?_eq_some_iff.mp h
    rw [List.length_singleton] at hlt
    obtain rfl : i = xs.length := by omega
    right
    simpa using h

theorem StatsOk.snoc {specs : List (Bytes × List SocketAddr)} {stats : BackendStats} {n : Nat}
    (h : StatsOk specs stats n) {spec : Bytes × List SocketAddr} (hnew : spec.1 ∉ specs.map (·.1))
    {slot : BackendSlot} (hok : SlotOk n slot) (hlisted : slot.addrs = spec.2) :
    StatsOk (specs ++ [spec]) ⟨stats.slots ++ [slot], insert stats.byName spec.1 slot⟩ n where
  length := by simp [h.length]
  listed := by
    intro i spec' slot' hspec hslot
    rcases getElem?_snoc hspec with hspec | ⟨rfl, rfl⟩
    · obtain ⟨hi, -⟩ := List.getElem?_eq_some_iff.mp hspec
      rw [← h.length] at hi
      have hold : stats.slots[i]? = some slot' := by
        rw [← List.getElem?_append_left hi]
        exact hslot
      exact h.listed i spec' slot' hspec hold
    · have hlast : (stats.slots ++ [slot])[specs.length]? = some slot := by
        rw [← h.length, List.getElem?_concat_length]
      obtain rfl : slot = slot' := Option.some.inj (hlast.symm.trans hslot)
      exact hlisted
  ok := by
    intro slot' hslot'
    rcases List.mem_append.mp hslot' with hslot' | hslot'
    · exact h.ok slot' hslot'
    · rw [List.mem_singleton.mp hslot']
      exact hok
  byName := by
    intro name
    rw [get_insert, List.map_append, List.map_singleton]
    by_cases hname : name = spec.1
    · rw [if_pos hname, hname, idxOf?_snoc_self hnew, List.length_map, ← h.length,
        Option.bind_some, List.getElem?_concat_length]
    · rw [if_neg hname, idxOf?_snoc_of_ne hname, h.byName]
      cases hidx : (specs.map (·.1)).idxOf? name with
      | none => rfl
      | some i =>
          obtain ⟨hi, -⟩ := List.getElem?_eq_some_iff.mp (getElem?_of_idxOf? hidx)
          rw [List.length_map, ← h.length] at hi
          rw [Option.bind_some, Option.bind_some, List.getElem?_append_left hi]

theorem SlotsCarried.snoc {previous : Option BackendStats}
    {specs : List (Bytes × List SocketAddr)} {stats : BackendStats}
    (h : SlotsCarried previous specs stats) (hlen : stats.slots.length = specs.length)
    {spec : Bytes × List SocketAddr} {slot : BackendSlot} {byName : Map Bytes BackendSlot}
    (hkept : ∀ (j : Nat) (addr : SocketAddr) (r : Ref), spec.2[j]? = some addr →
      carriedCounter (previous.bind fun p => get p.byName spec.1) addr = some r →
      slot.inflight[j]? = some r) :
    SlotsCarried previous (specs ++ [spec]) ⟨stats.slots ++ [slot], byName⟩ := by
  intro i spec' slot' hspec hslot
  rcases getElem?_snoc hspec with hspec | ⟨rfl, rfl⟩
  · obtain ⟨hi, -⟩ := List.getElem?_eq_some_iff.mp hspec
    rw [← hlen] at hi
    have hold : stats.slots[i]? = some slot' := by
      rw [← List.getElem?_append_left hi]
      exact hslot
    exact h i spec' slot' hspec hold
  · have hlast : (stats.slots ++ [slot])[specs.length]? = some slot := by
      rw [← hlen, List.getElem?_concat_length]
    obtain rfl : slot = slot' := Option.some.inj (hlast.symm.trans hslot)
    exact hkept

/-- One spec lemma for the rebuild of a slab, from wherever in the specs it stands. -/
theorem rebuildSlots_ok {previous : Option BackendStats}
    {done rest : List (Bytes × List SocketAddr)} {stats : BackendStats} {a : Arena}
    (hprev : ∀ p ∈ previous, ∀ name slot, get p.byName name = some slot →
      SlotOk a.inflight.length slot)
    (hok : StatsOk done stats a.inflight.length) (hcarried : SlotsCarried previous done stats)
    (hnames : ((done ++ rest).map (·.1)).Nodup) (haddrs : ∀ spec ∈ rest, spec.2.Nodup) :
    StatsOk (done ++ rest) (rebuildSlots previous rest stats a).1
        (rebuildSlots previous rest stats a).2.inflight.length ∧
      SlotsCarried previous (done ++ rest) (rebuildSlots previous rest stats a).1 ∧
      (∃ k, (rebuildSlots previous rest stats a).2.inflight = a.inflight ++ List.replicate k 0) ∧
      (rebuildSlots previous rest stats a).2.blocks = a.blocks := by
  induction rest generalizing done stats a with
  | nil =>
      rw [List.append_nil]
      refine ⟨hok, hcarried, ⟨0, ?_⟩, rfl⟩
      rw [rebuildSlots, List.replicate_zero, List.append_nil]
  | cons spec rest ih =>
      obtain ⟨name, addrs⟩ := spec
      have hold : ∀ prev ∈ previous.bind fun p => get p.byName name,
          SlotOk a.inflight.length prev := by
        intro prev hmem
        obtain ⟨p, hp, hget⟩ := Option.bind_eq_some_iff.mp hmem
        exact hprev p hp name prev hget
      obtain ⟨⟨k, hgrown⟩, hblocks, hlisted, hslot, hkept⟩ :=
        rebuildSlot_rebuilt hold (haddrs (name, addrs) List.mem_cons_self)
      have hlen : a.inflight.length ≤
          (rebuildSlot (previous.bind fun p => get p.byName name) addrs a).2.inflight.length := by
        rw [hgrown, List.length_append]
        omega
      have hnew : name ∉ done.map (·.1) := by
        rw [List.map_append, List.map_cons, List.nodup_append] at hnames
        intro hin
        exact hnames.2.2 name hin name List.mem_cons_self rfl
      have hcut : done ++ (name, addrs) :: rest = (done ++ [(name, addrs)]) ++ rest := by
        rw [List.append_assoc]
        rfl
      obtain ⟨hstats, hkeeps, ⟨k', hgrown'⟩, hblocks'⟩ :=
        ih (fun p hp other slot hget => (hprev p hp other slot hget).mono hlen)
          ((hok.mono hlen).snoc hnew hslot hlisted)
          (hcarried.snoc hok.length hkept)
          (by rw [← hcut]; exact hnames)
          (fun spec hspec => haddrs spec (List.mem_cons_of_mem _ hspec))
      rw [hcut]
      refine ⟨hstats, hkeeps, ⟨k + k', ?_⟩, hblocks'.trans hblocks⟩
      rw [List.replicate_add, ← List.append_assoc, ← hgrown]
      exact hgrown'

end Carrying

section Blocks

/-- The blocks of a table are those of its routes, one each, found again by identity. -/
structure RoutesOk (identities : List RouteIdentity) (stats : RouteStats) (n : Nat) : Prop where
  length : stats.slots.length = identities.length
  allocated : ∀ r ∈ stats.slots, r < n
  nodup : stats.slots.Nodup
  byIdentity : ∀ identity, get stats.byIdentity identity =
    (identities.idxOf? identity).bind fun i => stats.slots[i]?

/-- The block a route had in the previous table. -/
def carriedBlock (previous : Option RouteStats) (identity : RouteIdentity) : Option Ref :=
  previous.bind fun p => get p.byIdentity identity

/-- Where each block comes from: the previous table, or an allocation behind its first `n`. -/
def BlocksFrom (previous : Option RouteStats) (n : Nat) (identities : List RouteIdentity)
    (stats : RouteStats) : Prop :=
  ∀ (i : Nat) (identity : RouteIdentity) (r : Ref),
    identities[i]? = some identity → stats.slots[i]? = some r →
    carriedBlock previous identity = some r ∨ carriedBlock previous identity = none ∧ n ≤ r

theorem RoutesOk.mono {identities : List RouteIdentity} {stats : RouteStats} {m n : Nat}
    (h : RoutesOk identities stats m) (hle : m ≤ n) : RoutesOk identities stats n where
  length := h.length
  allocated := fun r hr => Nat.lt_of_lt_of_le (h.allocated r hr) hle
  nodup := h.nodup
  byIdentity := h.byIdentity

theorem RoutesOk.snoc {identities : List RouteIdentity} {stats : RouteStats} {n : Nat}
    (h : RoutesOk identities stats n) {identity : RouteIdentity} (hnew : identity ∉ identities)
    {r : Ref} (hr : r < n) (hfree : r ∉ stats.slots) :
    RoutesOk (identities ++ [identity])
      ⟨stats.slots ++ [r], insert stats.byIdentity identity r⟩ n where
  length := by simp [h.length]
  allocated := by
    intro s hs
    rcases List.mem_append.mp hs with hs | hs
    · exact h.allocated s hs
    · rw [List.mem_singleton.mp hs]
      exact hr
  nodup := by
    rw [List.nodup_append]
    refine ⟨h.nodup, List.nodup_singleton r, ?_⟩
    intro one hone other hother heq
    rw [List.mem_singleton] at hother
    exact hfree (hother ▸ heq ▸ hone)
  byIdentity := by
    intro other
    rw [get_insert]
    by_cases hsame : other = identity
    · rw [if_pos hsame, hsame, idxOf?_snoc_self hnew, ← h.length, Option.bind_some,
        List.getElem?_concat_length]
    · rw [if_neg hsame, idxOf?_snoc_of_ne hsame, h.byIdentity]
      cases hidx : identities.idxOf? other with
      | none => rfl
      | some i =>
          obtain ⟨hi, -⟩ := List.getElem?_eq_some_iff.mp (getElem?_of_idxOf? hidx)
          rw [← h.length] at hi
          rw [Option.bind_some, Option.bind_some, List.getElem?_append_left hi]

theorem BlocksFrom.snoc {previous : Option RouteStats} {n : Nat} {identities : List RouteIdentity}
    {stats : RouteStats} (h : BlocksFrom previous n identities stats)
    (hlen : stats.slots.length = identities.length) {identity : RouteIdentity} {r : Ref}
    (hfrom : carriedBlock previous identity = some r ∨
      carriedBlock previous identity = none ∧ n ≤ r) (byIdentity : Map RouteIdentity Ref) :
    BlocksFrom previous n (identities ++ [identity]) ⟨stats.slots ++ [r], byIdentity⟩ := by
  intro i identity' r' hidentity hslot
  rcases getElem?_snoc hidentity with hidentity | ⟨rfl, rfl⟩
  · obtain ⟨hi, -⟩ := List.getElem?_eq_some_iff.mp hidentity
    rw [← hlen] at hi
    have hold : stats.slots[i]? = some r' := by
      rw [← List.getElem?_append_left hi]
      exact hslot
    exact h i identity' r' hidentity hold
  · have hlast : (stats.slots ++ [r])[identities.length]? = some r := by
      rw [← hlen, List.getElem?_concat_length]
    obtain rfl : r = r' := Option.some.inj (hlast.symm.trans hslot)
    exact hfrom

/-- A block that is carried for one route, or freshly allocated, serves no other route yet. -/
theorem BlocksFrom.free {previous : Option RouteStats} {n m : Nat}
    {identities : List RouteIdentity} {stats : RouteStats}
    (h : BlocksFrom previous n identities stats) (hok : RoutesOk identities stats m)
    (hinj : ∀ one other r, carriedBlock previous one = some r →
      carriedBlock previous other = some r → one = other)
    (hlt : ∀ one r, carriedBlock previous one = some r → r < n) {identity : RouteIdentity}
    (hnew : identity ∉ identities) {r : Ref}
    (hfrom : carriedBlock previous identity = some r ∨ n ≤ r ∧ m ≤ r) : r ∉ stats.slots := by
  intro hin
  obtain ⟨i, hi, hget⟩ := List.mem_iff_getElem.mp hin
  have hslot : stats.slots[i]? = some r := by rw [List.getElem?_eq_getElem hi, hget]
  have hlen := hi
  rw [hok.length] at hlen
  have hidentity := List.getElem?_eq_getElem hlen
  rcases hfrom with hcarried | ⟨hn, hm⟩
  · rcases h i _ r hidentity hslot with hsame | ⟨-, hfresh⟩
    · exact hnew (hinj _ _ r hcarried hsame ▸ List.getElem_mem hlen)
    · have hsmall := hlt identity r hcarried
      exact absurd hfresh (Nat.not_le.mpr hsmall)
  · exact absurd hm (Nat.not_le.mpr (hok.allocated r hin))

theorem rebuildBlocks_ok {previous : Option RouteStats} {n : Nat}
    (hinj : ∀ one other r, carriedBlock previous one = some r →
      carriedBlock previous other = some r → one = other)
    (hlt : ∀ one r, carriedBlock previous one = some r → r < n)
    {done rest : List RouteIdentity} {stats : RouteStats} {blocks : List RouteSlot}
    (hn : n ≤ blocks.length) (hok : RoutesOk done stats blocks.length)
    (hfrom : BlocksFrom previous n done stats) (hnodup : (done ++ rest).Nodup) :
    RoutesOk (done ++ rest) (rebuildBlocks previous rest stats blocks).1
        (rebuildBlocks previous rest stats blocks).2.length ∧
      BlocksFrom previous n (done ++ rest) (rebuildBlocks previous rest stats blocks).1 ∧
      blocks.length ≤ (rebuildBlocks previous rest stats blocks).2.length := by
  induction rest generalizing done stats blocks with
  | nil =>
      rw [List.append_nil]
      exact ⟨hok, hfrom, Nat.le_refl _⟩
  | cons identity rest ih =>
      have hnew : identity ∉ done := by
        rw [List.nodup_append] at hnodup
        intro hin
        exact hnodup.2.2 identity hin identity List.mem_cons_self rfl
      have hcut : done ++ identity :: rest = (done ++ [identity]) ++ rest := by
        rw [List.append_assoc]
        rfl
      rw [hcut] at hnodup ⊢
      cases hcarried : carriedBlock previous identity with
      | some r =>
          have hstep : rebuildBlocks previous (identity :: rest) stats blocks =
              rebuildBlocks previous rest
                ⟨stats.slots ++ [r], insert stats.byIdentity identity r⟩ blocks := by
            have hlookup : (previous.bind fun p => get p.byIdentity identity) = some r := hcarried
            simp only [rebuildBlocks, hlookup]
          rw [hstep]
          have hroom : r < blocks.length := Nat.lt_of_lt_of_le (hlt identity r hcarried) hn
          have hfree := hfrom.free hok hinj hlt hnew (.inl hcarried)
          exact ih hn (hok.snoc hnew hroom hfree) (hfrom.snoc hok.length (.inl hcarried) _) hnodup
      | none =>
          have hstep : rebuildBlocks previous (identity :: rest) stats blocks =
              rebuildBlocks previous rest
                ⟨stats.slots ++ [blocks.length], insert stats.byIdentity identity blocks.length⟩
                (blocks ++ [({} : RouteSlot)]) := by
            have hlookup : (previous.bind fun p => get p.byIdentity identity) = none := hcarried
            simp only [rebuildBlocks, hlookup]
          rw [hstep]
          have hlen : (blocks ++ [({} : RouteSlot)]).length = blocks.length + 1 := by
            rw [List.length_append, List.length_singleton]
          have hfree := hfrom.free hok hinj hlt hnew (.inr ⟨hn, Nat.le_refl _⟩)
          have hgrown : RoutesOk done stats (blocks ++ [({} : RouteSlot)]).length :=
            hok.mono (by omega)
          have hroom : n ≤ (blocks ++ [({} : RouteSlot)]).length := by
            rw [hlen]
            exact Nat.le_succ_of_le hn
          have hlast : blocks.length < (blocks ++ [({} : RouteSlot)]).length := by omega
          obtain ⟨hroutes, hblocks, hle⟩ := ih hroom (hgrown.snoc hnew hlast hfree)
            (hfrom.snoc hok.length (.inr ⟨hcarried, hn⟩) _) hnodup
          exact ⟨hroutes, hblocks, by omega⟩

end Blocks

end Ramjet.Router.CountersKept
