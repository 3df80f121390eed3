/- digest: Which endpoint each policy selects: the idlest, the rotation's next, never a drained one. -/

import Mathlib.Algebra.Order.Field.Rat
import Mathlib.Data.List.Range
import Ramjet.Base.FirstHit
import Ramjet.Base.Windows
import Ramjet.Router.Rotation

set_option autoImplicit false
set_option relaxedAutoImplicit false

namespace Ramjet.Router.Selection

open Ramjet.Base.FirstHit
open Ramjet.Base.Octets
open Ramjet.Base.Windows
open Ramjet.Router.Balancing
open Ramjet.Router.Rotation
open Ramjet.Router.Rule (U32_SIZE)
open Ramjet.Router.Stats (U64_SIZE)

section LeastConn

variable (slot : SlotReading)

/-- The load the scan compares: requests in flight by weight, a drained endpoint counting as 1. -/
def load (p : Endpoint × Nat) : ℚ := (slot.inflight p.2 : ℚ) / (max p.1.weight 1 : Nat)

theorem load_lt_iff (p q : Endpoint × Nat) :
    load slot p < load slot q ↔
      slot.inflight p.2 * max q.1.weight 1 < slot.inflight q.2 * max p.1.weight 1 := by
  have hp : (0 : ℚ) < (max p.1.weight 1 : Nat) := by
    exact_mod_cast Nat.lt_of_lt_of_le Nat.zero_lt_one (Nat.le_max_right _ _)
  have hq : (0 : ℚ) < (max q.1.weight 1 : Nat) := by
    exact_mod_cast Nat.lt_of_lt_of_le Nat.zero_lt_one (Nat.le_max_right _ _)
  rw [load, load, div_lt_div_iff₀ hp hq]
  exact_mod_cast Iff.rfl

/-- The running fraction is the load of the first of the least loaded endpoints so far. -/
theorem leastConn_scan (rest : List Endpoint) (k best : Nat) (ep : Endpoint)
    (seen : List (Endpoint × Nat)) (hbest : IsFirstMin (load slot) seen (ep, best)) :
    ∃ ep', IsFirstMin (load slot) (seen ++ rest.zipIdx k)
      (ep', leastConn slot rest k best (slot.inflight best) (max ep.weight 1)) := by
  induction rest generalizing k best ep seen with
  | nil =>
      rw [List.zipIdx_nil, List.append_nil]
      exact ⟨ep, hbest⟩
  | cons next rest ih =>
      have hsnoc := hbest.snoc (load slot) (next, k)
      rw [List.zipIdx_cons, List.append_cons]
      simp only [leastConn]
      split
      · rename_i hless
        rw [if_pos ((load_lt_iff slot (next, k) (ep, best)).mpr hless)] at hsnoc
        exact ih (k + 1) k next _ hsnoc
      · rename_i hmore
        rw [if_neg (fun h => hmore ((load_lt_iff slot (next, k) (ep, best)).mp h))] at hsnoc
        exact ih (k + 1) best ep _ hsnoc

/-- The first least of a numbered list, read by position. -/
theorem isFirstMin_zipIdx {key : Endpoint × Nat → ℚ} {endpoints : List Endpoint} {ep : Endpoint}
    {i : Nat} (h : IsFirstMin key endpoints.zipIdx (ep, i)) :
    endpoints[i]? = some ep ∧ ∀ (j : Nat) (ej : Endpoint), endpoints[j]? = some ej →
      key (ep, i) ≤ key (ej, j) ∧ (j < i → key (ep, i) < key (ej, j)) := by
  obtain ⟨pre, post, hsplit, hpre, hpost⟩ := h
  have hread : ∀ j : Nat, (pre ++ (ep, i) :: post)[j]? = endpoints[j]?.map fun e => (e, j) := by
    intro j
    rw [← hsplit, List.getElem?_zipIdx, Nat.zero_add]
  have hhere := hread pre.length
  rw [List.getElem?_append_right le_rfl, Nat.sub_self, List.getElem?_cons_zero] at hhere
  obtain ⟨e, he, hpair⟩ := Option.map_eq_some_iff.mp hhere.symm
  obtain ⟨rfl, rfl⟩ := Prod.mk.inj hpair
  refine ⟨he, ?_⟩
  intro j ej hej
  have hthere := hread j
  rw [hej, Option.map_some] at hthere
  rcases Nat.lt_trichotomy j pre.length with hlt | rfl | hgt
  · rw [List.getElem?_append_left hlt] at hthere
    have hless := hpre _ (List.mem_of_getElem? hthere)
    exact ⟨hless.le, fun _ => hless⟩
  · rw [he] at hej
    cases hej
    exact ⟨le_rfl, fun h => (Nat.lt_irrefl _ h).elim⟩
  · rw [List.getElem?_append_right hgt.le, show j - pre.length = (j - pre.length - 1) + 1 by omega,
      List.getElem?_cons_succ] at hthere
    exact ⟨hpost _ (List.mem_of_getElem? hthere), fun h => by omega⟩

/-- Under `LeastConn` the endpoint selected is the first of the least loaded ones. -/
theorem selectEndpoint_leastConn (backend : Backend) (hpolicy : backend.policy = .leastConn)
    (hsome : backend.endpoints ≠ []) (rng : Nat) :
    ∃ i ep, selectEndpoint backend (some slot) rng = some (i, ep) ∧
      IsFirstMin (load slot) backend.endpoints.zipIdx (ep, i) := by
  cases hends : backend.endpoints with
  | nil => exact absurd hends hsome
  | cons first tail =>
      obtain ⟨ep, hmin⟩ := leastConn_scan slot tail 1 0 first _
        (isFirstMin_singleton (load slot) (first, 0))
      have hmin' : IsFirstMin (load slot) (first :: tail).zipIdx
          (ep, leastConn slot tail 1 0 (slot.inflight 0) (max first.weight 1)) := hmin
      refine ⟨_, ep, ?_, hmin'⟩
      have hget := (isFirstMin_zipIdx hmin').1
      simp only [selectEndpoint, hends, hpolicy, List.length_cons, Nat.add_one_ne_zero, if_false,
        List.head?_cons, List.tail_cons, Option.bind_eq_bind, Option.bind_some, hget]
      rfl

/-- The scan's products, of any count and any weight, fit 64 bits. -/
def ProductsFit (endpoints : List Endpoint) : Prop :=
  ∀ (i j : Nat) (ej : Endpoint), endpoints[j]? = some ej →
    slot.inflight i * max ej.weight 1 < U64_SIZE

/-- No endpoint's load is below the one `LeastConn` selects, and none before it has the same. -/
theorem leastConn_minimises {backend : Backend} (hpolicy : backend.policy = .leastConn)
    (hsome : backend.endpoints ≠ []) (hlive : ∀ ep ∈ backend.endpoints, 0 < ep.weight)
    (hcounts : ∀ i, slot.inflight i < U32_SIZE)
    (hweights : ∀ ep ∈ backend.endpoints, ep.weight < U32_SIZE) (rng : Nat) :
    ProductsFit slot backend.endpoints ∧
      ∃ i ep, selectEndpoint backend (some slot) rng = some (i, ep) ∧
        backend.endpoints[i]? = some ep ∧
        ∀ (j : Nat) (ej : Endpoint), backend.endpoints[j]? = some ej →
          (slot.inflight i : ℚ) / ep.weight ≤ slot.inflight j / ej.weight ∧
            (j < i → (slot.inflight i : ℚ) / ep.weight < slot.inflight j / ej.weight) := by
  refine ⟨?_, ?_⟩
  · intro i j ej hej
    have hw := hweights ej (List.mem_of_getElem? hej)
    have hword : max ej.weight 1 < U32_SIZE := Nat.max_lt.mpr ⟨hw, by decide⟩
    exact Nat.lt_of_lt_of_le (Nat.mul_lt_mul'' (hcounts i) hword) (by decide)
  · obtain ⟨i, ep, hselect, hmin⟩ := selectEndpoint_leastConn slot backend hpolicy hsome rng
    obtain ⟨hget, hleast⟩ := isFirstMin_zipIdx hmin
    refine ⟨i, ep, hselect, hget, ?_⟩
    have hload : ∀ (j : Nat) (ej : Endpoint), backend.endpoints[j]? = some ej →
        load slot (ej, j) = (slot.inflight j : ℚ) / ej.weight := by
      intro j ej hej
      have hpos := hlive ej (List.mem_of_getElem? hej)
      rw [load, Nat.max_eq_left hpos]
    intro j ej hej
    have hcompare := hleast j ej hej
    rwa [hload i ep hget, hload j ej hej] at hcompare

/-- Three requests at three times the weight are the lighter load. -/
theorem leastConn_minimises_scaled :
    let backend := Backend.new [] (weighted [2, 6]) .leastConn .http1 0
    let reading : SlotReading := ⟨0, fun i => if i = 0 then 2 else 3⟩
    ProductsFit reading backend.endpoints ∧
      ∃ i ep, selectEndpoint backend (some reading) 0 = some (i, ep) ∧
        backend.endpoints[i]? = some ep ∧
        ∀ (j : Nat) (ej : Endpoint), backend.endpoints[j]? = some ej →
          (reading.inflight i : ℚ) / ep.weight ≤ reading.inflight j / ej.weight ∧
            (j < i → (reading.inflight i : ℚ) / ep.weight < reading.inflight j / ej.weight) := by
  refine leastConn_minimises _ rfl (List.cons_ne_nil _ _) (by decide) ?_ (by decide) 0
  intro i
  show (if i = 0 then 2 else 3) < U32_SIZE
  split <;> decide

end LeastConn

section Rotation

/-- The slots of a backend's rotation: its ring, or each endpoint once where it has none. -/
def rotation (backend : Backend) : List Nat :=
  backend.ring.getD (List.range backend.endpoints.length)

/-- The endpoint in the rotation's slot for a cursor or a random word. -/
def pick (backend : Backend) (word : Nat) : Option (Nat × Endpoint) := do
  let i ← (rotation backend)[word % (rotation backend).length]?
  let ep ← backend.endpoints[i]?
  return (i, ep)

theorem selectEndpoint_roundRobin {backend : Backend} (hpolicy : backend.policy = .roundRobin)
    (hsome : backend.endpoints ≠ []) (slot : SlotReading) (rng : Nat) :
    selectEndpoint backend (some slot) rng = pick backend slot.cursor := by
  have hlen : 0 < backend.endpoints.length := List.length_pos_iff.mpr hsome
  simp only [selectEndpoint, pick, rotation, hpolicy, if_neg (Nat.pos_iff_ne_zero.mp hlen)]
  cases backend.ring with
  | some ring => rfl
  | none =>
      simp only [Option.getD_none, List.length_range, Option.bind_eq_bind, Option.bind_some,
        List.getElem?_range (Nat.mod_lt slot.cursor hlen)]

theorem selectEndpoint_random {backend : Backend} (hpolicy : backend.policy = .random)
    (hsome : backend.endpoints ≠ []) (slot : Option SlotReading) (rng : Nat) :
    selectEndpoint backend slot rng = pick backend rng := by
  have hlen : 0 < backend.endpoints.length := List.length_pos_iff.mpr hsome
  simp only [selectEndpoint, pick, rotation, hpolicy, if_neg (Nat.pos_iff_ne_zero.mp hlen)]
  cases backend.ring with
  | some ring => rfl
  | none =>
      simp only [Option.getD_none, List.length_range, Option.bind_eq_bind, Option.bind_some,
        List.getElem?_range (Nat.mod_lt rng hlen)]

/-- Without a ring the weights are all one, or all zero. -/
private theorem weight_of_ringless {endpoints : List Endpoint} (hnone : buildRing endpoints = none)
    (hlive : ∃ ep ∈ endpoints, 0 < ep.weight) : ∀ ep ∈ endpoints, 0 < ep.weight := by
  obtain ⟨live, hmem, hpos⟩ := hlive
  have htotal : 0 < (weights endpoints).sum :=
    Nat.lt_of_lt_of_le hpos (List.le_sum_of_mem (List.mem_map_of_mem hmem))
  unfold buildRing at hnone
  split at hnone
  · intro ep hep
    cases hep
  · rename_i first rest
    split at hnone
    · rename_i hall
      have hsame : ∀ ep ∈ first :: rest, ep.weight = first.weight := by simpa using hall
      intro ep hep
      rw [hsame ep hep, ← hsame live hmem]
      exact hpos
    · simp only at hnone
      rw [if_neg (Nat.pos_iff_ne_zero.mp htotal)] at hnone
      split at hnone
      · rename_i hslots
        have hnoslot : ringScale (weights (first :: rest)).sum live.weight = 0 :=
          List.sum_eq_zero_iff_forall_eq_nat.mp hslots _ (List.mem_map_of_mem hmem)
        have hslot := @ringScale_pos (weights (first :: rest)).sum _ hpos
        omega
      · cases hnone

/-- The rotation of a backend the builder made. -/
structure Rotates (endpoints : List Endpoint) (slots : List Nat) : Prop where
  nonempty : endpoints ≠ [] → slots ≠ []
  index : ∀ i ∈ slots, i < endpoints.length
  live : (∃ ep ∈ endpoints, 0 < ep.weight) →
    ∀ i ∈ slots, ∀ ep, endpoints[i]? = some ep → 0 < ep.weight

theorem rotates_of_built (backend : Backend)
    (hring : backend.ring = buildRing backend.endpoints) :
    Rotates backend.endpoints (rotation backend) := by
  rw [rotation, hring]
  cases hbuilt : buildRing backend.endpoints with
  | none =>
      rw [Option.getD_none]
      refine ⟨fun hsome => ?_, fun i hi => List.mem_range.mp hi, fun hlive i _ ep hep => ?_⟩
      · exact mt List.range_eq_nil.mp (List.length_pos_iff.mpr hsome).ne'
      · exact weight_of_ringless hbuilt hlive ep (List.mem_of_getElem? hep)
  | some ring =>
      rw [Option.getD_some]
      refine ⟨fun _ => ?_, fun i hi => ring_index hbuilt hi, fun _ i hi ep hep => ?_⟩
      · rintro rfl
        obtain ⟨htotal, -⟩ := buildRing_eq_some hbuilt
        have hlength := ring_length hbuilt
        obtain ⟨w, hw, hpos⟩ : ∃ w ∈ weights backend.endpoints, 0 < w := by
          by_contra hnone
          have hzero : (weights backend.endpoints).sum = 0 :=
            List.sum_eq_zero_iff_forall_eq_nat.mpr fun w hw =>
              Nat.eq_zero_of_not_pos fun hpos => hnone ⟨w, hw, hpos⟩
          omega
        have hslot := @ringScale_pos (weights backend.endpoints).sum _ hpos
        have hle := List.le_sum_of_mem
          (List.mem_map_of_mem (f := ringScale (weights backend.endpoints).sum) hw)
        rw [← hlength, List.length_nil] at hle
        omega
      · exact ring_weight hbuilt hi hep

theorem pick_spec (backend : Backend) (hring : backend.ring = buildRing backend.endpoints)
    (hsome : backend.endpoints ≠ []) (word : Nat) :
    ∃ i ep, (rotation backend)[word % (rotation backend).length]? = some i ∧
      backend.endpoints[i]? = some ep ∧ pick backend word = some (i, ep) := by
  have hrotates := rotates_of_built backend hring
  have hlt := Nat.mod_lt word (List.length_pos_iff.mpr (hrotates.nonempty hsome))
  have hslot := List.getElem?_eq_getElem hlt
  have hend := List.getElem?_eq_getElem (hrotates.index _ (List.getElem_mem hlt))
  refine ⟨_, _, hslot, hend, ?_⟩
  simp only [pick, hslot, hend, Option.bind_eq_bind, Option.bind_some]
  rfl

end Rotation

section Draining

variable (name : Bytes) (endpoints : List Endpoint) (protocol : BackendProtocol)
  (statsIndex : Nat)

/-- Some live endpoint comes before every drained one in the order `LeastConn` selects by,
where a drained endpoint counts as one of weight 1. -/
def LiveFirst (slot : SlotReading) (endpoints : List Endpoint) : Prop :=
  ∃ (i : Nat) (ep : Endpoint), endpoints[i]? = some ep ∧ 0 < ep.weight ∧
    ∀ (j : Nat) (ej : Endpoint), endpoints[j]? = some ej → ej.weight = 0 →
      slot.inflight i < slot.inflight j * ep.weight ∨
        slot.inflight i = slot.inflight j * ep.weight ∧ i < j

/-- A drained endpoint's load against a live one's. -/
private theorem load_drained (slot : SlotReading) {ep ej : Endpoint} (i j : Nat)
    (hlive : 0 < ep.weight) (hdrained : ej.weight = 0) :
    (load slot (ep, i) < load slot (ej, j) ↔ slot.inflight i < slot.inflight j * ep.weight) ∧
      (load slot (ej, j) < load slot (ep, i) ↔
        slot.inflight j * ep.weight < slot.inflight i) := by
  have hep : max ep.weight 1 = ep.weight := Nat.max_eq_left hlive
  have hej : max ej.weight 1 = 1 := by rw [hdrained]; rfl
  constructor
  · simp only [load_lt_iff, hep, hej, Nat.mul_one]
  · simp only [load_lt_iff, hep, hej, Nat.mul_one]

private theorem leastConn_live_iff (slot : SlotReading) {i : Nat} {ep : Endpoint}
    (hmin : IsFirstMin (load slot) endpoints.zipIdx (ep, i)) :
    0 < ep.weight ↔ LiveFirst slot endpoints := by
  obtain ⟨hget, hleast⟩ := isFirstMin_zipIdx hmin
  constructor
  · intro hlive
    refine ⟨i, ep, hget, hlive, ?_⟩
    intro j ej hej hdrained
    obtain ⟨hle, hlt⟩ := hleast j ej hej
    obtain ⟨hless, hmore⟩ := load_drained slot i j hlive hdrained
    have hnot := mt hmore.mpr (not_lt.mpr hle)
    rcases Nat.lt_trichotomy j i with hji | rfl | hij
    · exact .inl (hless.mp (hlt hji))
    · rw [hget] at hej
      cases hej
      omega
    · omega
  · rintro ⟨k, live, hk, hlive, hbeats⟩
    by_contra hzero
    have hdrained : ep.weight = 0 := Nat.eq_zero_of_not_pos hzero
    obtain ⟨hle, hlt⟩ := hleast k live hk
    obtain ⟨hless, hmore⟩ := load_drained slot k i hlive hdrained
    rcases hbeats i ep hget hdrained with hbeat | ⟨htie, hki⟩
    · exact not_lt.mpr hle (hless.mpr hbeat)
    · have hstrict := hmore.mp (hlt hki)
      omega

/-- The endpoint selected is live exactly where the policy is a rotation's, or `LeastConn` finds
a live endpoint before every drained one. -/
theorem selected_live_iff (policy : LbPolicy) (hlive : ∃ ep ∈ endpoints, 0 < ep.weight)
    (slot : SlotReading) (rng : Nat) :
    (∀ i ep, selectEndpoint (Backend.new name endpoints policy protocol statsIndex)
        (some slot) rng = some (i, ep) → ep.weight ≠ 0) ↔
      (policy = .leastConn → LiveFirst slot endpoints) := by
  have hsome : endpoints ≠ [] := by
    rintro rfl
    obtain ⟨ep, hmem, -⟩ := hlive
    cases hmem
  have hpick : ∀ word i ep,
      pick (Backend.new name endpoints policy protocol statsIndex) word = some (i, ep) →
        ep.weight ≠ 0 := by
    intro word i ep hep
    obtain ⟨i', ep', hslot, hend, hpicked⟩ :=
      pick_spec (Backend.new name endpoints policy protocol statsIndex) rfl hsome word
    rw [hpicked] at hep
    obtain ⟨rfl, rfl⟩ := Prod.mk.inj (Option.some.inj hep)
    have hrotates :=
      rotates_of_built (Backend.new name endpoints policy protocol statsIndex) rfl
    have hpos := hrotates.live hlive i' (List.mem_of_getElem? hslot) ep' hend
    exact Nat.pos_iff_ne_zero.mp hpos
  cases policy with
  | roundRobin =>
      constructor
      · intro _ hpolicy
        cases hpolicy
      · intro _ i ep hselect
        rw [selectEndpoint_roundRobin rfl hsome] at hselect
        exact hpick _ i ep hselect
  | random =>
      constructor
      · intro _ hpolicy
        cases hpolicy
      · intro _ i ep hselect
        rw [selectEndpoint_random rfl hsome] at hselect
        exact hpick _ i ep hselect
  | leastConn =>
      obtain ⟨i, ep, hselect, hmin⟩ := selectEndpoint_leastConn slot
        (Backend.new name endpoints .leastConn protocol statsIndex) rfl hsome rng
      have hiff := leastConn_live_iff endpoints slot hmin
      constructor
      · intro hall _
        exact hiff.mp (Nat.pos_of_ne_zero (hall i ep hselect))
      · intro hfirst i' ep' hselect'
        rw [hselect] at hselect'
        obtain ⟨rfl, rfl⟩ := Prod.mk.inj (Option.some.inj hselect')
        exact Nat.pos_iff_ne_zero.mp (hiff.mpr (hfirst rfl))

/-- Two endpoints, the second drained, while the first serves one request. -/
theorem drained_selected :
    ∃ i ep, selectEndpoint (Backend.new [] (weighted [1, 0]) .leastConn .http1 0)
      (some ⟨0, fun i => if i = 0 then 1 else 0⟩) 0 = some (i, ep) ∧ ep.weight = 0 :=
  ⟨1, _, rfl, rfl⟩

/-- The same endpoints while both are idle. -/
theorem selected_live_idle :
    ∃ i ep, selectEndpoint (Backend.new [] (weighted [1, 0]) .leastConn .http1 0)
      (some ⟨0, fun _ => 0⟩) 0 = some (i, ep) ∧ ep.weight ≠ 0 := by
  have hfirst : LiveFirst ⟨0, fun _ => 0⟩ (weighted [1, 0]) := by
    refine ⟨0, _, rfl, by decide, ?_⟩
    intro j ej hej hzero
    refine .inr ⟨rfl, ?_⟩
    match j with
    | 0 =>
        cases hej
        cases hzero
    | j + 1 => exact Nat.succ_pos j
  have hlive := (selected_live_iff [] (weighted [1, 0]) .http1 0 .leastConn
    ⟨_, List.mem_cons_self, by decide⟩ ⟨0, fun _ => 0⟩ 0).mpr fun _ => hfirst
  exact ⟨0, _, rfl, hlive 0 _ rfl⟩

end Draining

section Fairness

/-- The cursor after a selection, which wraps at 32 bits. -/
def nextCursor (cursor : Nat) : Nat := (cursor + 1) % U32_SIZE

/-- Consecutive selections from a cursor, each with its own counts and random word. -/
def selections (backend : Backend) : List ((Nat → Nat) × Nat) → Nat →
    List (Option (Nat × Endpoint))
  | [], _ => []
  | (inflight, rng) :: calls, cursor =>
      selectEndpoint backend (some ⟨cursor, inflight⟩) rng ::
        selections backend calls (nextCursor cursor)

/-- The cursor each of them reads. -/
def cursors : Nat → Nat → List Nat
  | 0, _ => []
  | n + 1, cursor => cursor :: cursors n (nextCursor cursor)

theorem cursors_eq (n : Nat) {cursor : Nat} (hcursor : cursor < U32_SIZE) :
    cursors n cursor = (List.range n).map fun k => (cursor + k) % U32_SIZE := by
  induction n generalizing cursor with
  | zero => rfl
  | succ n ih =>
      have hhere : (cursor + 0) % U32_SIZE = cursor := Nat.mod_eq_of_lt hcursor
      rw [cursors, nextCursor, List.range_succ_eq_map, List.map_cons, hhere,
        ih (Nat.mod_lt _ (by decide)), List.map_map]
      refine congrArg (cursor :: ·) (List.map_congr_left fun k _ => ?_)
      rw [Function.comp_apply, Nat.mod_add_mod]
      congr 1
      omega

theorem selections_eq {backend : Backend} (hpolicy : backend.policy = .roundRobin)
    (hsome : backend.endpoints ≠ []) (calls : List ((Nat → Nat) × Nat)) (cursor : Nat) :
    selections backend calls cursor = (cursors calls.length cursor).map (pick backend) := by
  induction calls generalizing cursor with
  | nil => rfl
  | cons call calls ih =>
      rw [selections, selectEndpoint_roundRobin hpolicy hsome, ih]
      rfl

/-- The slot of the rotation each of `n` selections takes its endpoint from. -/
def visits (slots n cursor : Nat) : List Nat := (cursors n cursor).map (· % slots)

/-- Every slot is visited once, and every endpoint chosen as often as it has slots. -/
structure Fair (backend : Backend) (calls : List ((Nat → Nat) × Nat)) (cursor : Nat) : Prop where
  visited : (visits (rotation backend).length calls.length cursor).Perm
    (List.range (rotation backend).length)
  shares : ∀ i, ((selections backend calls cursor).filterMap fun s => s.map (·.1)).count i =
    (rotation backend).count i

theorem visits_eq_wrapped (n : Nat) {cursor : Nat} (hcursor : cursor < U32_SIZE) :
    visits n n cursor = wrapped U32_SIZE n cursor := by
  rw [visits, cursors_eq n hcursor, List.map_map]
  rfl

/-- The endpoints chosen are those of the slots visited. -/
theorem chosen_eq {backend : Backend} (hpolicy : backend.policy = .roundRobin)
    (hring : backend.ring = buildRing backend.endpoints) (hsome : backend.endpoints ≠ [])
    (calls : List ((Nat → Nat) × Nat)) (cursor : Nat) :
    ((selections backend calls cursor).filterMap fun s => s.map (·.1)) =
      (visits (rotation backend).length calls.length cursor).map
        fun slot => (rotation backend).getD slot 0 := by
  rw [selections_eq hpolicy hsome, visits, List.filterMap_map, List.map_map]
  induction cursors calls.length cursor with
  | nil => rfl
  | cons word words ih =>
      obtain ⟨i, ep, hslot, -, hpick⟩ := pick_spec backend hring hsome word
      rw [List.filterMap_cons, List.map_cons, ← ih]
      simp only [Function.comp_apply, hpick, Option.map_some, List.getD_eq_getElem?_getD, hslot,
        Option.getD_some]

private theorem map_getD_range (slots : List Nat) :
    ((List.range slots.length).map fun slot => slots.getD slot 0) = slots := by
  refine List.ext_getElem? fun i => ?_
  rcases Nat.lt_or_ge i slots.length with hlt | hge
  · rw [List.getElem?_map, List.getElem?_range hlt, Option.map_some,
      List.getD_eq_getElem?_getD, List.getElem?_eq_getElem hlt, Option.getD_some]
  · rw [List.getElem?_eq_none (by simpa using hge), List.getElem?_eq_none hge]

/-- A whole rotation is fair exactly where the cursor does not wrap within it, or wraps at a
multiple of its length. -/
theorem fair_iff (name : Bytes) (endpoints : List Endpoint) (protocol : BackendProtocol)
    (statsIndex : Nat) (calls : List ((Nat → Nat) × Nat)) {cursor : Nat}
    (hcursor : cursor < U32_SIZE)
    (hcalls : calls.length =
      (rotation (Backend.new name endpoints .roundRobin protocol statsIndex)).length) :
    Fair (Backend.new name endpoints .roundRobin protocol statsIndex) calls cursor ↔
      cursor + calls.length ≤ U32_SIZE ∨ calls.length ∣ U32_SIZE := by
  rw [← wrapped_perm_iff hcursor, ← visits_eq_wrapped _ hcursor]
  constructor
  · intro hfair
    have hvisited := hfair.visited
    rwa [← hcalls] at hvisited
  · intro hperm
    rw [hcalls] at hperm
    refine ⟨by rwa [hcalls], fun i => ?_⟩
    rcases List.eq_nil_or_concat endpoints with rfl | hsome
    · cases calls with
      | nil => rfl
      | cons call calls => cases hcalls
    · have hne : endpoints ≠ [] := by
        obtain ⟨front, last, rfl⟩ := hsome
        simp
      have hshare := (hperm.map fun slot =>
        (rotation (Backend.new name endpoints .roundRobin protocol statsIndex)).getD slot 0).count i
      rw [map_getD_range] at hshare
      rw [chosen_eq rfl rfl hne, hcalls]
      exact hshare

/-- Three endpoints at the cursor's last value: the first is chosen twice and the third never. -/
theorem unfair_at_wrap :
    ¬ Fair (Backend.new [] (weighted [1, 1, 1]) .roundRobin .http1 0)
      (List.replicate 3 (fun _ => 0, 0)) 4294967295 := by
  intro hfair
  have hvisited : (visits 3 3 4294967295).Perm (List.range 3) := hfair.visited
  revert hvisited
  decide

theorem fair_from_zero :
    Fair (Backend.new [] (weighted [1, 1, 1]) .roundRobin .http1 0)
      (List.replicate 3 (fun _ => 0, 0)) 0 :=
  (fair_iff [] (weighted [1, 1, 1]) .http1 0 (List.replicate 3 (fun _ => 0, 0)) (by decide)
    rfl).mpr (.inl (by decide))

end Fairness

end Ramjet.Router.Selection
