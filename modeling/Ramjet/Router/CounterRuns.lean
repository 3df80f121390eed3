/- digest: Any run of rebuilds, guards and responses leaves every counter accounted for. -/

import Mathlib.Data.List.Count
import Mathlib.Data.List.Nodup
import Ramjet.Router.CountersKept

set_option autoImplicit false
set_option relaxedAutoImplicit false

namespace Ramjet.Router.CounterRuns

open Ramjet.Base.Octets
open Ramjet.Base.AssocMap
open Ramjet.Base.Machine
open Ramjet.Base.Net
open Ramjet.Router.Balancing
open Ramjet.Router.Rule
open Ramjet.Router.Table
open Ramjet.Router.Builder
open Ramjet.Router.BuiltTable
open Ramjet.Router.Stats
open Ramjet.Router.Counters
open Ramjet.Router.RouteNumbers
open Ramjet.Router.CountersKept

/-- A table with a backend of that name, at that address among others. -/
def Serves (t : RouteTable) (name : Bytes) (addr : SocketAddr) : Prop :=
  ∃ b ∈ t.backends, b.name = name ∧ addr ∈ b.endpoints.map (·.addr)

/-- The in-flight counter of an endpoint, reached through the backend's stats index. -/
def counterOf (g : Generation) (name : Bytes) (addr : SocketAddr) : Option Ref := do
  let b ← g.table.backends.find? fun b => b.name = name
  let slot ← g.stats.slots[b.statsIndex]?
  let i ← (b.endpoints.map (·.addr)).idxOf? addr
  slot.inflight[i]?

/-- The counter block of a route, reached through its stats index. -/
def blockOf (g : Generation) (e : RouteHost × PathRule) : Option Ref :=
  g.routeStats.slots[e.2.statsIndex]?

/-- A table whose backends and routes have distinct 32-bit indices. -/
structure Fits (t : RouteTable) : Prop where
  backends : t.backends.length ≤ U32_SIZE
  routes : t.identities.length ≤ U32_SIZE

/-- What counters are for: each says how many guards hold it, endpoints keep theirs from table to
table, and routes share none. -/
structure Accounted (w : World) : Prop where
  balanced : ∀ (r : Ref) (v : Nat), w.arena.inflight[r]? = some v →
    v = w.guards.count r % U32_SIZE
  positive : ∀ r ∈ w.guards, w.guards.count r < U32_SIZE →
    ∃ v, w.arena.inflight[r]? = some v ∧ 0 < v
  kept : ∀ (name : Bytes) (addr : SocketAddr) (first last : Nat),
    (∀ k, first ≤ k → k ≤ last →
      ∃ g, w.tables[k]? = some g ∧ Fits g.table ∧ Serves g.table name addr) →
    ∃ r, ∀ k, first ≤ k → k ≤ last → ∃ g, w.tables[k]? = some g ∧ counterOf g name addr = some r
  indexed : ∀ g ∈ w.tables, Fits g.table →
    ∀ e ∈ routes g.table, e.2.statsIndex < g.routeStats.slots.length
  unshared : ∀ g ∈ w.tables, Fits g.table → ((routes g.table).map (blockOf g)).Nodup
  carried : ∀ (k : Nat) (g g' : Generation), w.tables[k]? = some g → w.tables[k + 1]? = some g' →
    Fits g.table → Fits g'.table → ∀ e ∈ routes g.table, ∀ e' ∈ routes g'.table,
      identityOf g.table.backends e = identityOf g'.table.backends e' → blockOf g e = blockOf g' e'

section Tables

/-- What the build of a table promises about its names, its addresses and its indices. -/
structure Specified (t : RouteTable) : Prop where
  names : (t.statsSpecs.map (·.1)).Nodup
  addrs : ∀ spec ∈ t.statsSpecs, spec.2.Nodup
  length : t.backends.length = t.statsSpecs.length
  listed : ∀ (i : Nat) (b : Backend), t.backends[i]? = some b →
    t.statsSpecs[i]? = some (b.name, b.endpoints.map (·.addr)) ∧ b.statsIndex = i % U32_SIZE
  identities : t.identities.Nodup
  numbered : t.identities.length ≤ U32_SIZE → Numbered t.backends t

theorem builtBackends_listed (drafts : List BackendDraft) {i : Nat} {b : Backend}
    (h : (builtBackends drafts)[i]? = some b) :
    (drafts.map fun d => (d.name, d.endpoints.map (·.addr)))[i]? =
        some (b.name, b.endpoints.map (·.addr)) ∧ b.statsIndex = i % U32_SIZE := by
  rw [builtBackends, List.getElem?_map, List.getElem?_zipIdx, Option.map_map,
    Option.map_eq_some_iff] at h
  obtain ⟨d, hd, rfl⟩ := h
  rw [List.getElem?_map, hd]
  refine ⟨rfl, ?_⟩
  simp [Backend.new]

theorem build_specified (rx : RegexEngine) {b : RouteTableBuilder} (hb : BuilderOk b)
    (hbackends : b.backends = []) (hroutes : b.routes = []) (calls : List BuilderCall)
    {t : RouteTable} (h : (b.calls rx calls).build = .ok t)
    (haddrs : ∀ spec ∈ t.statsSpecs, spec.2.Nodup) : Specified t := by
  have hstarless : ∀ d ∈ b.routes, Starless d := by
    intro d hd
    rw [hroutes] at hd
    exact (List.not_mem_nil hd).elim
  have hnames : (b.backends.map (·.name)).Nodup := by
    rw [hbackends]
    exact List.nodup_nil
  obtain ⟨hidentities, hnumbered, hspecs⟩ := build_numbered (starless_calls rx hstarless calls) h
  obtain ⟨hbuilt, -⟩ := build_ok h
  refine ⟨?_, haddrs, ?_, ?_, hidentities, hnumbered⟩
  · rw [hspecs, List.map_map]
    exact backend_names_calls rx hb hnames calls
  · rw [hspecs, hbuilt, builtBackends, List.length_map, List.length_zipIdx, List.length_map]
  · intro i backend hbackend
    rw [hspecs]
    rw [hbuilt] at hbackend
    exact builtBackends_listed _ hbackend

theorem builder_specified (rx : RegexEngine) (w : World) (calls : List BuilderCall)
    {t : RouteTable} (h : (w.builder.calls rx calls).build = .ok t)
    (haddrs : ∀ spec ∈ t.statsSpecs, spec.2.Nodup) : Specified t := by
  cases hlast : w.tables.getLast? with
  | none =>
      have hbuilder : w.builder = {} := by simp only [World.builder, hlast]
      rw [hbuilder] at h
      exact build_specified rx builderOk_fresh rfl rfl calls h haddrs
  | some last =>
      have hbuilder : w.builder = RouteTableBuilder.fromPrevious last.table := by
        simp only [World.builder, hlast]
      rw [hbuilder] at h
      exact build_specified rx (builderOk_fromPrevious last.table) rfl rfl calls h haddrs

end Tables

section Generations

/-- A generation over its arena: a counter for every endpoint, a block for every route. -/
structure GenerationOk (a : Arena) (g : Generation) : Prop where
  table : Specified g.table
  stats : StatsOk g.table.statsSpecs g.stats a.inflight.length
  blocks : RoutesOk g.table.identities g.routeStats a.blocks.length

theorem GenerationOk.mono {a a' : Arena} {g : Generation} (h : GenerationOk a g)
    (hinflight : a.inflight.length ≤ a'.inflight.length)
    (hblocks : a.blocks.length ≤ a'.blocks.length) : GenerationOk a' g where
  table := h.table
  stats := h.stats.mono hinflight
  blocks := h.blocks.mono hblocks

variable {a : Arena} {g : Generation}

/-- The slot of a backend of the table is found at its index and under its name alike. -/
theorem GenerationOk.slot (h : GenerationOk a g) {i : Nat} {spec : Bytes × List SocketAddr}
    (hspec : g.table.statsSpecs[i]? = some spec) :
    ∃ slot, g.stats.slots[i]? = some slot ∧ Base.AssocMap.get g.stats.byName spec.1 = some slot ∧
      slot.addrs = spec.2 ∧ SlotOk a.inflight.length slot := by
  obtain ⟨hi, -⟩ := List.getElem?_eq_some_iff.mp hspec
  rw [← h.stats.length] at hi
  have hslot := List.getElem?_eq_getElem hi
  have hname : (g.table.statsSpecs.map (·.1))[i]? = some spec.1 := by
    rw [List.getElem?_map, hspec, Option.map_some]
  refine ⟨_, hslot, ?_, h.stats.listed i spec _ hspec hslot, h.stats.ok _ (List.getElem_mem hi)⟩
  rw [h.stats.byName, idxOf?_of_nodup h.table.names hname, Option.bind_some, hslot]

theorem Serves.spec {t : RouteTable} (ht : Specified t) {name : Bytes} {addr : SocketAddr}
    (h : Serves t name addr) :
    ∃ (i : Nat) (spec : Bytes × List SocketAddr),
      t.statsSpecs[i]? = some spec ∧ spec.1 = name ∧ addr ∈ spec.2 := by
  obtain ⟨b, hb, hname, haddr⟩ := h
  obtain ⟨i, hi, hget⟩ := List.mem_iff_getElem.mp hb
  have hlisted := ht.listed i b (by rw [List.getElem?_eq_getElem hi, hget])
  exact ⟨i, _, hlisted.1, hname, haddr⟩

/-- Reaching a counter through the table is looking it up by name and address. -/
theorem GenerationOk.counterOf_eq (h : GenerationOk a g)
    (hfits : g.table.backends.length ≤ U32_SIZE) (name : Bytes) (addr : SocketAddr) :
    counterOf g name addr = carriedCounter (Base.AssocMap.get g.stats.byName name) addr := by
  cases hfind : g.table.backends.find? fun b => b.name = name with
  | none =>
      have habsent : name ∉ g.table.statsSpecs.map (·.1) := by
        intro hin
        obtain ⟨i, hi, hget⟩ := List.mem_iff_getElem.mp hin
        rw [List.length_map] at hi
        have hback : i < g.table.backends.length := by
          rw [h.table.length]
          exact hi
        obtain ⟨hspec, -⟩ := h.table.listed i _ (List.getElem?_eq_getElem hback)
        rw [List.getElem?_eq_getElem hi, Option.some.injEq] at hspec
        rw [List.getElem_map, hspec] at hget
        have hne := List.find?_eq_none.mp hfind _ (List.getElem_mem hback)
        exact hne (by simpa using hget)
      have hidx : (g.table.statsSpecs.map (·.1)).idxOf? name = none := by
        rw [List.idxOf?_eq_none_iff]
        exact habsent
      rw [counterOf, hfind, h.stats.byName, hidx]
      rfl
  | some b =>
      obtain ⟨hb, i, hi, hget, -⟩ := List.find?_eq_some_iff_getElem.mp hfind
      obtain ⟨hspec, hindex⟩ :=
        h.table.listed i b (by rw [List.getElem?_eq_getElem hi, hget])
      rw [Nat.mod_eq_of_lt (Nat.lt_of_lt_of_le hi hfits)] at hindex
      obtain ⟨slot, hslot, hname, haddrs, -⟩ := h.slot hspec
      have hsame : b.name = name := by simpa using hb
      rw [hsame] at hname
      simp only [counterOf, hfind, hindex, hslot, hname, carriedCounter, haddrs, bind,
        Option.bind_some]

/-- Every endpoint a table serves has a counter. -/
theorem GenerationOk.counted (h : GenerationOk a g) {name : Bytes} {addr : SocketAddr}
    (hserves : Serves g.table name addr) :
    ∃ r, carriedCounter (Base.AssocMap.get g.stats.byName name) addr = some r := by
  obtain ⟨i, spec, hspec, rfl, haddr⟩ := hserves.spec h.table
  obtain ⟨slot, -, hname, haddrs, hok⟩ := h.slot hspec
  rw [← haddrs] at haddr
  obtain ⟨j, hj⟩ := idxOf?_of_mem haddr
  obtain ⟨hlt, -⟩ := List.getElem?_eq_some_iff.mp (getElem?_of_idxOf? hj)
  rw [← hok.parallel] at hlt
  refine ⟨slot.inflight[j], ?_⟩
  rw [hname, carriedCounter, Option.bind_some, hj, Option.bind_some, List.getElem?_eq_getElem hlt]

/-- An endpoint served by the next table too keeps its counter. -/
theorem GenerationOk.carries {a' : Arena} {g' : Generation} (h' : GenerationOk a' g')
    (hcarried : SlotsCarried (some g.stats) g'.table.statsSpecs g'.stats) {name : Bytes}
    {addr : SocketAddr} (hserves : Serves g'.table name addr) {r : Ref}
    (hr : carriedCounter (Base.AssocMap.get g.stats.byName name) addr = some r) :
    carriedCounter (Base.AssocMap.get g'.stats.byName name) addr = some r := by
  obtain ⟨i, spec, hspec, rfl, haddr⟩ := hserves.spec h'.table
  obtain ⟨slot, hslot, hname, haddrs, -⟩ := h'.slot hspec
  rw [← haddrs] at haddr
  obtain ⟨j, hj⟩ := idxOf?_of_mem haddr
  have hat : spec.2[j]? = some addr := by
    rw [← haddrs]
    exact getElem?_of_idxOf? hj
  rw [hname, carriedCounter, Option.bind_some, hj, Option.bind_some]
  exact hcarried i spec slot hspec hslot j addr r hat hr

theorem GenerationOk.index_lt (h : GenerationOk a g)
    (hfits : g.table.identities.length ≤ U32_SIZE) {e : RouteHost × PathRule}
    (he : e ∈ routes g.table) : e.2.statsIndex < g.routeStats.slots.length := by
  obtain ⟨hlt, -⟩ := List.getElem?_eq_some_iff.mp ((h.table.numbered hfits).named e he)
  rw [h.blocks.length]
  exact hlt

/-- No two routes of a table count into one block. -/
theorem GenerationOk.blocks_nodup (h : GenerationOk a g)
    (hfits : g.table.identities.length ≤ U32_SIZE) :
    ((routes g.table).map (blockOf g)).Nodup := by
  have hperm := (h.table.numbered hfits).indices.map fun i => g.routeStats.slots[i]?
  rw [List.map_map] at hperm
  have hall : ((List.range g.table.identities.length).map fun i => g.routeStats.slots[i]?) =
      g.routeStats.slots.map some := by
    rw [← h.blocks.length]
    refine List.ext_getElem? fun i => ?_
    rw [List.getElem?_map, List.getElem?_map]
    by_cases hi : i < g.routeStats.slots.length
    · rw [List.getElem?_range hi, Option.map_some, List.getElem?_eq_getElem hi, Option.map_some]
    · rw [List.getElem?_eq_none (by rw [List.length_range]; omega),
        List.getElem?_eq_none (by omega)]
      rfl
  rw [hall] at hperm
  exact hperm.nodup_iff.mpr (h.blocks.nodup.map (Option.some_injective _))

/-- The block of a route is the one its identity is found under. -/
theorem GenerationOk.blockOf_eq (h : GenerationOk a g)
    (hfits : g.table.identities.length ≤ U32_SIZE) {e : RouteHost × PathRule}
    (he : e ∈ routes g.table) :
    blockOf g e = carriedBlock (some g.routeStats) (identityOf g.table.backends e) := by
  have hnamed := (h.table.numbered hfits).named e he
  rw [carriedBlock, Option.bind_some, h.blocks.byIdentity,
    idxOf?_of_nodup h.table.identities hnamed, Option.bind_some, blockOf]

theorem GenerationOk.carriesBlock {a' : Arena} {g' : Generation} (h : GenerationOk a g)
    (h' : GenerationOk a' g') {n : Nat}
    (hfrom : BlocksFrom (some g.routeStats) n g'.table.identities g'.routeStats)
    (hfits : g.table.identities.length ≤ U32_SIZE)
    (hfits' : g'.table.identities.length ≤ U32_SIZE) {e e' : RouteHost × PathRule}
    (he : e ∈ routes g.table) (he' : e' ∈ routes g'.table)
    (hsame : identityOf g.table.backends e = identityOf g'.table.backends e') :
    blockOf g e = blockOf g' e' := by
  have hlt := h.index_lt hfits he
  have hlt' := h'.index_lt hfits' he'
  have hblock : blockOf g e = some g.routeStats.slots[e.2.statsIndex] :=
    List.getElem?_eq_getElem hlt
  have hblock' : blockOf g' e' = some g'.routeStats.slots[e'.2.statsIndex] :=
    List.getElem?_eq_getElem hlt'
  have hkept : carriedBlock (some g.routeStats) (identityOf g'.table.backends e') =
      blockOf g e := by
    rw [h.blockOf_eq hfits he, hsame]
  rcases hfrom _ _ _ ((h'.table.numbered hfits').named e' he') hblock' with hold | ⟨hnone, -⟩
  · rw [← hkept, hold, hblock']
  · rw [hkept, hblock] at hnone
    cases hnone

end Generations

section Runs

/-- What holds of the tables, the counters and the guards after any number of steps. -/
structure Inv (w : World) : Prop where
  balanced : ∀ (r : Ref) (v : Nat), w.arena.inflight[r]? = some v →
    v = w.guards.count r % U32_SIZE
  held : ∀ r ∈ w.guards, r < w.arena.inflight.length
  tables : ∀ g ∈ w.tables, GenerationOk w.arena g
  chained : ∀ (k : Nat) (g g' : Generation),
    w.tables[k]? = some g → w.tables[k + 1]? = some g' →
      SlotsCarried (some g.stats) g'.table.statsSpecs g'.stats ∧
        ∃ n, BlocksFrom (some g.routeStats) n g'.table.identities g'.routeStats

theorem inv_empty : Inv {} where
  balanced := by simp
  held := by simp
  tables := by simp
  chained := by simp

theorem Inv.last {w : World} (h : Inv w) {last : Generation}
    (hlast : w.tables.getLast? = some last) : GenerationOk w.arena last :=
  h.tables last (List.mem_of_getLast? hlast)

theorem Inv.lastSlots {w : World} (h : Inv w) :
    ∀ p ∈ w.tables.getLast?.map (·.stats), ∀ name slot,
      Base.AssocMap.get p.byName name = some slot → SlotOk w.arena.inflight.length slot := by
  intro p hp name slot hget
  obtain ⟨last, hin, rfl⟩ := Option.map_eq_some_iff.mp hp
  rw [(h.last hin).stats.byName] at hget
  obtain ⟨i, -, hslot⟩ := Option.bind_eq_some_iff.mp hget
  exact (h.last hin).stats.ok slot (List.mem_of_getElem? hslot)

/-- A block carried forward is that of a route of the last table. -/
theorem Inv.lastBlock {w : World} (h : Inv w) {identity : RouteIdentity} {r : Ref}
    (hr : carriedBlock (w.tables.getLast?.map (·.routeStats)) identity = some r) :
    ∃ last, GenerationOk w.arena last ∧ w.tables.getLast? = some last ∧
      ∃ i, last.table.identities.idxOf? identity = some i ∧
        last.routeStats.slots[i]? = some r := by
  obtain ⟨p, hp, hget⟩ := Option.bind_eq_some_iff.mp hr
  obtain ⟨last, hin, rfl⟩ := Option.map_eq_some_iff.mp hp
  rw [(h.last hin).blocks.byIdentity] at hget
  obtain ⟨i, hi, hslot⟩ := Option.bind_eq_some_iff.mp hget
  exact ⟨last, h.last hin, hin, i, hi, hslot⟩

theorem Inv.lastBlock_inj {w : World} (h : Inv w) (one other : RouteIdentity) (r : Ref)
    (hone : carriedBlock (w.tables.getLast?.map (·.routeStats)) one = some r)
    (hother : carriedBlock (w.tables.getLast?.map (·.routeStats)) other = some r) :
    one = other := by
  obtain ⟨last, hok, hin, i, hi, hslot⟩ := h.lastBlock hone
  obtain ⟨last', -, hin', j, hj, hslot'⟩ := h.lastBlock hother
  obtain rfl : last = last' := Option.some.inj (hin.symm.trans hin')
  obtain ⟨hlt, hget⟩ := List.getElem?_eq_some_iff.mp hslot
  obtain ⟨hlt', hget'⟩ := List.getElem?_eq_some_iff.mp hslot'
  obtain rfl : i = j := (List.Nodup.getElem_inj_iff hok.blocks.nodup).mp (hget.trans hget'.symm)
  exact Option.some.inj ((getElem?_of_idxOf? hi).symm.trans (getElem?_of_idxOf? hj))

theorem Inv.lastBlock_lt {w : World} (h : Inv w) (identity : RouteIdentity) (r : Ref)
    (hr : carriedBlock (w.tables.getLast?.map (·.routeStats)) identity = some r) :
    r < w.arena.blocks.length := by
  obtain ⟨last, hok, -, i, -, hslot⟩ := h.lastBlock hr
  exact hok.blocks.allocated r (List.mem_of_getElem? hslot)

/-- What freezing a table adds to the world: one generation, over an arena that only grew. -/
structure Frozen (w : World) (t : RouteTable) (g : Generation) : Prop where
  tables : (w.freeze t).tables = w.tables ++ [g]
  inflight : ∃ k, (w.freeze t).arena.inflight = w.arena.inflight ++ List.replicate k 0
  blocks : w.arena.blocks.length ≤ (w.freeze t).arena.blocks.length
  ok : GenerationOk (w.freeze t).arena g
  slots : SlotsCarried (w.tables.getLast?.map (·.stats)) g.table.statsSpecs g.stats
  blocksFrom : ∃ n,
    BlocksFrom (w.tables.getLast?.map (·.routeStats)) n g.table.identities g.routeStats

theorem freeze_frozen {w : World} (h : Inv w) {t : RouteTable} (ht : Specified t) :
    ∃ g, Frozen w t g := by
  have hempty : StatsOk [] ({} : BackendStats) w.arena.inflight.length :=
    ⟨rfl, by simp, by simp, fun name => rfl⟩
  have hnames : ((([] : List (Bytes × List SocketAddr)) ++ t.statsSpecs).map (·.1)).Nodup :=
    ht.names
  obtain ⟨hstats, hcarried, hgrown, hsame⟩ :=
    rebuildSlots_ok h.lastSlots hempty (by intro i spec slot hspec; simp at hspec) hnames ht.addrs
  have hstart : RoutesOk [] ({} : RouteStats) w.arena.blocks.length :=
    ⟨rfl, by simp, List.nodup_nil, fun identity => rfl⟩
  have hidentities : (([] : List RouteIdentity) ++ t.identities).Nodup := ht.identities
  obtain ⟨hroutes, hfrom, hle⟩ := rebuildBlocks_ok h.lastBlock_inj h.lastBlock_lt
    (Nat.le_refl _) hstart (by intro i identity r hidentity; simp at hidentity) hidentities
  rw [← hsame] at hroutes hfrom hle
  exact ⟨_, rfl, hgrown, hsame ▸ hle, ⟨ht, hstats, hroutes⟩, hcarried, _, hfrom⟩

theorem Inv.freeze {w : World} (h : Inv w) {t : RouteTable} (ht : Specified t) :
    Inv (w.freeze t) := by
  obtain ⟨g, htables, ⟨k, hinflight⟩, hblocks, hok, hslots, hfrom⟩ := freeze_frozen h ht
  have hguards : (w.freeze t).guards = w.guards := rfl
  have hlen : w.arena.inflight.length ≤ (w.freeze t).arena.inflight.length := by
    rw [hinflight, List.length_append]
    exact Nat.le_add_right _ _
  refine ⟨?_, ?_, ?_, ?_⟩
  · intro r v hv
    rw [hguards]
    rw [hinflight] at hv
    by_cases hr : r < w.arena.inflight.length
    · rw [List.getElem?_append_left hr] at hv
      exact h.balanced r v hv
    · -- A fresh counter is at zero and no guard holds it yet.
      have hfree : r ∉ w.guards := fun hin => hr (h.held r hin)
      rw [List.getElem?_append_right (Nat.not_lt.mp hr)] at hv
      have hzero := List.eq_of_mem_replicate (List.mem_of_getElem? hv)
      rw [hzero, List.count_eq_zero_of_not_mem hfree]
      rfl
  · intro r hr
    rw [hguards] at hr
    exact Nat.lt_of_lt_of_le (h.held r hr) hlen
  · intro g' hg'
    rw [htables] at hg'
    rcases List.mem_append.mp hg' with hg' | hg'
    · exact (h.tables g' hg').mono hlen hblocks
    · rw [List.mem_singleton.mp hg']
      exact hok
  · intro k one other hone hother
    rw [htables] at hone hother
    by_cases hk : k + 1 < w.tables.length
    · rw [List.getElem?_append_left hk] at hother
      rw [List.getElem?_append_left (by omega)] at hone
      exact h.chained k one other hone hother
    · -- The new table follows the last one there was.
      obtain ⟨hlt, -⟩ := List.getElem?_eq_some_iff.mp hother
      rw [List.length_append, List.length_singleton] at hlt
      have hk : w.tables.length = k + 1 := by omega
      rw [List.getElem?_append_left (by omega)] at hone
      rw [← hk, List.getElem?_concat_length, Option.some.injEq] at hother
      have hlast : w.tables.getLast? = some one := by
        rw [List.getLast?_eq_getElem?, hk]
        exact hone
      rw [hlast] at hslots hfrom
      rw [← hother]
      exact ⟨hslots, hfrom⟩

/-- A step that adds no table and allocates nothing only has its guards to account for. -/
theorem Inv.touch {w w' : World} (h : Inv w) (htables : w'.tables = w.tables)
    (hinflight : w'.arena.inflight.length = w.arena.inflight.length)
    (hblocks : w'.arena.blocks.length = w.arena.blocks.length)
    (hbalanced : ∀ (r : Ref) (v : Nat), w'.arena.inflight[r]? = some v →
      v = w'.guards.count r % U32_SIZE)
    (hheld : ∀ r ∈ w'.guards, r < w'.arena.inflight.length) : Inv w' where
  balanced := hbalanced
  held := hheld
  tables := by
    intro g hg
    rw [htables] at hg
    exact (h.tables g hg).mono (Nat.le_of_eq hinflight.symm) (Nat.le_of_eq hblocks.symm)
  chained := by
    intro k g g' hg hg'
    rw [htables] at hg hg'
    exact h.chained k g g' hg hg'

theorem Inv.counter_lt {w : World} (h : Inv w) {generation slot index : Nat} {r : Ref}
    (hr : w.counter generation slot index = some r) : r < w.arena.inflight.length := by
  simp only [World.counter, bind, Option.bind_eq_some_iff] at hr
  obtain ⟨g, hg, s, hs, hr⟩ := hr
  have hslot := (h.tables g (List.mem_of_getElem? hg)).stats.ok s (List.mem_of_getElem? hs)
  exact hslot.allocated r (List.mem_of_getElem? hr)

theorem Inv.acquire {w : World} (h : Inv w) {r : Ref} (hr : r < w.arena.inflight.length) :
    Inv { w with
      arena := { w.arena with inflight := w.arena.inflight.modify r increment }
      guards := w.guards ++ [r] } := by
  refine h.touch rfl (List.length_modify ..) rfl ?_ ?_
  · intro s v hv
    obtain ⟨old, hold, rfl⟩ := Option.map_eq_some_iff.mp ((List.getElem?_modify ..).symm.trans hv)
    have hwas := h.balanced s old hold
    by_cases hsame : r = s
    · subst hsame
      simp only [if_pos, increment, List.count_append, List.count_singleton_self]
      rw [hwas, Nat.mod_add_mod]
    · simp [List.count_append, hsame, hwas]
  · intro s hs
    rw [List.length_modify]
    rcases List.mem_append.mp hs with hs | hs
    · exact h.held s hs
    · rw [List.mem_singleton.mp hs]
      exact hr

/-- Releasing one guard of `n` leaves `n - 1`, in 32-bit arithmetic too. -/
theorem decrement_succ (n : Nat) : decrement ((n + 1) % U32_SIZE) = n % U32_SIZE := by
  unfold decrement U32_SIZE
  omega

theorem Inv.release {w : World} (h : Inv w) {guard : Nat} {r : Ref}
    (hr : w.guards[guard]? = some r) :
    Inv { w with
      arena := { w.arena with inflight := w.arena.inflight.modify r decrement }
      guards := w.guards.eraseIdx guard } := by
  obtain ⟨hguard, hget⟩ := List.getElem?_eq_some_iff.mp hr
  have hperm := List.getElem_cons_eraseIdx_perm hguard
  rw [hget] at hperm
  refine h.touch rfl (List.length_modify ..) rfl ?_ ?_
  · intro s v hv
    obtain ⟨old, hold, rfl⟩ := Option.map_eq_some_iff.mp ((List.getElem?_modify ..).symm.trans hv)
    have hwas := h.balanced s old hold
    have hcount := hperm.count_eq s
    by_cases hsame : r = s
    · subst hsame
      rw [List.count_cons_self] at hcount
      rw [← hcount] at hwas
      simp only [if_pos]
      rw [hwas, decrement_succ]
    · rw [List.count_cons_of_ne hsame] at hcount
      simp only [if_neg hsame]
      rw [hcount]
      exact hwas
  · intro s hs
    rw [List.length_modify]
    exact h.held s (List.mem_of_mem_eraseIdx hs)

variable (rx : RegexEngine)

theorem step_inv (w : World) (act : Action) (w' : World) (h : Inv w)
    (hdistinct : DistinctAddrs rx w act) (hstep : step rx w act = some w') : Inv w' := by
  cases act with
  | rebuild calls =>
      simp only [step] at hstep
      split at hstep
      · cases hstep
      · rename_i t ht
        cases hstep
        exact h.freeze (builder_specified rx w calls ht (hdistinct t ht))
  | acquire generation slot index =>
      obtain ⟨r, hr, rfl⟩ := Option.map_eq_some_iff.mp hstep
      exact h.acquire (h.counter_lt hr)
  | release guard =>
      obtain ⟨r, hr, rfl⟩ := Option.map_eq_some_iff.mp hstep
      exact h.release hr
  | nextCursor generation slot =>
      simp only [step, bind, Option.bind_eq_some_iff] at hstep
      obtain ⟨g, -, s, -, hstep⟩ := hstep
      cases hstep
      exact h.touch rfl rfl rfl h.balanced h.held
  | respond generation route shard status =>
      simp only [step, bind, Option.bind_eq_some_iff] at hstep
      obtain ⟨g, -, r, -, hstep⟩ := hstep
      cases hstep
      exact h.touch rfl rfl (List.length_modify ..) h.balanced h.held

/-- Along a stretch of tables that all serve an endpoint, its counter is the one it started with. -/
theorem Inv.kept {w : World} (h : Inv w) {name : Bytes} {addr : SocketAddr} {first last : Nat}
    (hserves : ∀ k, first ≤ k → k ≤ last →
      ∃ g, w.tables[k]? = some g ∧ Fits g.table ∧ Serves g.table name addr) :
    ∃ r, ∀ k, first ≤ k → k ≤ last →
      ∃ g, w.tables[k]? = some g ∧ counterOf g name addr = some r := by
  by_cases hle : first ≤ last
  · obtain ⟨g, hg, -, hserve⟩ := hserves first (Nat.le_refl _) hle
    obtain ⟨r, hr⟩ := (h.tables g (List.mem_of_getElem? hg)).counted hserve
    have hall : ∀ k, first + k ≤ last → ∃ g, w.tables[first + k]? = some g ∧
        carriedCounter (Base.AssocMap.get g.stats.byName name) addr = some r := by
      intro k
      induction k with
      | zero => exact fun _ => ⟨g, hg, hr⟩
      | succ k ih =>
          intro hk
          obtain ⟨g, hg, hcounter⟩ := ih (by omega)
          obtain ⟨g', hg', -, hserve'⟩ := hserves (first + (k + 1)) (by omega) hk
          obtain ⟨hcarried, -⟩ := h.chained (first + k) g g' hg hg'
          have hok := h.tables g' (List.mem_of_getElem? hg')
          exact ⟨g', hg', hok.carries hcarried hserve' hcounter⟩
    refine ⟨r, fun k hfirst hlast => ?_⟩
    obtain ⟨j, rfl⟩ := Nat.exists_eq_add_of_le hfirst
    obtain ⟨g, hg, hcounter⟩ := hall j hlast
    obtain ⟨g', hg', hfits, -⟩ := hserves (first + j) hfirst hlast
    obtain rfl : g = g' := Option.some.inj (hg.symm.trans hg')
    have hok := h.tables g (List.mem_of_getElem? hg)
    exact ⟨g, hg, (hok.counterOf_eq hfits.backends name addr).trans hcounter⟩
  · exact ⟨0, fun k hfirst hlast => absurd (Nat.le_trans hfirst hlast) hle⟩

theorem Inv.accounted {w : World} (h : Inv w) : Accounted w where
  balanced := h.balanced
  positive := by
    intro r hr hfew
    have hlt := h.held r hr
    have hcell := List.getElem?_eq_getElem hlt
    have hcount := List.count_pos_iff.mpr hr
    refine ⟨_, hcell, ?_⟩
    rw [h.balanced r _ hcell, Nat.mod_eq_of_lt hfew]
    exact hcount
  kept := fun name addr first last hserves => h.kept hserves
  indexed := fun g hg hfits e he => (h.tables g hg).index_lt hfits.routes he
  unshared := fun g hg hfits => (h.tables g hg).blocks_nodup hfits.routes
  carried := by
    intro k g g' hg hg' hfits hfits' e he e' he' hsame
    obtain ⟨-, n, hfrom⟩ := h.chained k g g' hg hg'
    have hok := h.tables g (List.mem_of_getElem? hg)
    have hok' := h.tables g' (List.mem_of_getElem? hg')
    exact hok.carriesBlock hok' hfrom hfits.routes hfits'.routes he he' hsame

/-- Over any chain of rebuilds and any interleaving of guards, counters are balanced, carried from
table to table, and shared by no two routes. -/
theorem counters_accounted (acts : List Action)
    (hdistinct : Meets (step rx) (DistinctAddrs rx) {} acts) :
    Always (step rx) Accounted {} acts :=
  always_of_meets (step_inv rx) (fun _ => Inv.accounted) inv_empty hdistinct

end Runs

section Wrapping

/-- A table with one backend at one address, and no routes. -/
def oneEndpoint : List BuilderCall :=
  [.backendWith (ascii "web") [⟨⟨.v4 (Vector.replicate 4 10), 8080, 0⟩, 1⟩] {}]

def noPattern : RegexEngine := ⟨fun _ => true, fun _ _ => false⟩

theorem oneEndpoint_distinct : DistinctAddrs noPattern {} (.rebuild oneEndpoint) := by
  intro t ht
  have hbuilt : ∃ t, ((World.builder {}).calls noPattern oneEndpoint).build = .ok t ∧
      ∀ spec ∈ t.statsSpecs, spec.2.Nodup := ⟨_, rfl, by decide⟩
  obtain ⟨t', ht', hspecs⟩ := hbuilt
  rw [ht'] at ht
  cases ht
  exact hspecs

theorem counters_accounted_one :
    Always (step noPattern) Accounted {} [.rebuild oneEndpoint, .acquire 0 0 0, .release 0] :=
  counters_accounted noPattern _
    ⟨oneEndpoint_distinct, fun _ _ => ⟨trivial, fun _ _ => ⟨trivial, fun _ _ => trivial⟩⟩⟩

/-- Guards taken one after the other through the only counter there is. -/
theorem run_acquires (rx : RegexEngine) (n : Nat) {w : World} {v : Nat}
    (hcounter : w.counter 0 0 0 = some 0) (hv : w.arena.inflight = [v % U32_SIZE]) :
    ∃ w', run (step rx) w (List.replicate n (.acquire 0 0 0)) = some w' ∧
      w'.arena.inflight = [(v + n) % U32_SIZE] ∧ w'.guards = w.guards ++ List.replicate n 0 := by
  induction n generalizing w v with
  | zero => exact ⟨w, rfl, hv, (List.append_nil _).symm⟩
  | succ n ih =>
      let next : World := { w with
        arena := { w.arena with inflight := w.arena.inflight.modify 0 increment }
        guards := w.guards ++ [0] }
      have hstep : step rx w (.acquire 0 0 0) = some next := by
        rw [step, hcounter]
        rfl
      have hnext : next.arena.inflight = [(v + 1) % U32_SIZE] := by
        show w.arena.inflight.modify 0 increment = _
        rw [hv]
        simp [increment, U32_SIZE]
      have hcounter' : next.counter 0 0 0 = some 0 := hcounter
      obtain ⟨w', hrun, hinflight, hguards⟩ := ih hcounter' hnext
      refine ⟨w', ?_, ?_, ?_⟩
      · rw [List.replicate_succ, run, hstep]
        exact hrun
      · rw [hinflight, Nat.add_assoc, Nat.add_comm 1 n]
      · have hone : next.guards = w.guards ++ [0] := rfl
        rw [hguards, hone, List.append_assoc, List.replicate_succ]
        rfl

/-- A counter of 32 bits reads zero under 4294967296 guards. -/
theorem counter_wraps :
    ∃ w, run (step noPattern) {}
        (.rebuild oneEndpoint :: List.replicate 4294967296 (.acquire 0 0 0)) = some w ∧
      w.arena.inflight[0]? = some 0 ∧ w.guards.count 0 = 4294967296 := by
  have hfirst : ∃ w, step noPattern {} (.rebuild oneEndpoint) = some w ∧
      w.counter 0 0 0 = some 0 ∧ w.arena.inflight = [0] ∧ w.guards = [] :=
    ⟨_, rfl, by decide, by decide, by decide⟩
  obtain ⟨w, hstep, hcounter, hinflight, hguards⟩ := hfirst
  have hzero : w.arena.inflight = [0 % U32_SIZE] := hinflight
  obtain ⟨w', hrun, hcells, hheld⟩ := run_acquires noPattern 4294967296 hcounter hzero
  refine ⟨w', ?_, ?_, ?_⟩
  · rw [run, hstep]
    exact hrun
  · rw [hcells]
    rfl
  · rw [hheld, hguards, List.nil_append, List.count_replicate_self]

end Wrapping

end Ramjet.Router.CounterRuns
