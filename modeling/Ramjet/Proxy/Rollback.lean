/- digest: What is served along a run of recordings, pins and releases, and what stays listed. -/

import Ramjet.Proxy.Operations

set_option autoImplicit false
set_option relaxedAutoImplicit false

namespace Ramjet.Proxy.Rollback

open Ramjet.Base.Machine
open Ramjet.Base.Recency
open Ramjet.Router.Table
open Ramjet.Proxy.Tls
open Ramjet.Proxy.History
open Ramjet.Proxy.PublishOrder
open Ramjet.Proxy.Operations

variable {Key Diff : Type}

section Recordings

/-- What was recorded under a number. -/
structure Recording (Key : Type) where
  generation : Nat
  keys : CertKeys Key
  table : RouteTable

def recordingOf (record : GenerationRecord Key Diff) : Recording Key :=
  ⟨record.generation, record.keys, record.table⟩

def recording? : Op Key Diff → Option (Recording Key)
  | .record generation _ _ table keys _ => some ⟨generation, keys, table⟩
  | _ => none

/-- Everything a run records, oldest first. -/
def recordings (ops : List (Op Key Diff)) : List (Recording Key) := ops.filterMap recording?

theorem recordings_concat (ops : List (Op Key Diff)) (op : Op Key Diff) :
    recordings (ops ++ [op]) = recordings ops ++ (recording? op).toList := by
  unfold recordings
  rw [List.filterMap_append]
  cases h : recording? op with
  | none => rw [List.filterMap_cons_none h, List.filterMap_nil, Option.toList_none]
  | some r => rw [List.filterMap_cons_some h, List.filterMap_nil, Option.toList_some]

@[simp] theorem recordings_concat_pin (ops : List (Op Key Diff)) (generation : Nat) :
    recordings (ops ++ [.pin generation]) = recordings ops := by
  simp [recordings_concat, recording?]

@[simp] theorem recordings_concat_unpin (ops : List (Op Key Diff)) :
    recordings (ops ++ [.unpin]) = recordings ops := by
  simp [recordings_concat, recording?]

theorem recordings_markPublished (s : State Key Diff) (generation : Nat) :
    (s.markPublished generation).ring.map recordingOf = s.ring.map recordingOf := by
  unfold State.markPublished
  rw [List.map_map]
  apply List.map_congr_left
  intro entry _
  simp only [Function.comp_apply]
  split <;> rfl

end Recordings

section Listing

/-- The numbers held are the newest of those recorded, each at its last recording. -/
theorem generations_performAll (start : World Key Diff) (hstart : start.state.ring = [])
    (ops : List (Op Key Diff)) :
    (performAll start ops).state.ring.map (·.generation) =
      newest start.capacity ((recordings ops).map (·.generation)).dedup := by
  rw [← foldl_touch]
  induction ops using List.reverseRecOn with
  | nil =>
      rw [performAll_nil, hstart]
      rfl
  | append_singleton ops op ih =>
      rw [performAll_concat, state_perform, recordings_concat, List.map_append, List.foldl_append]
      rw [← ih]
      obtain ⟨p, hp, heffect⟩ := exists_effect (performAll start ops) op
      rw [hp]
      cases heffect with
      | live generation digest diff table keys now hpinned =>
          rw [generations_push, capacity_performAll]
          rfl
      | heldBack generation digest diff table keys now current hpinned =>
          rw [generations_push, capacity_performAll]
          rfl
      | refused generation error => rfl
      | pinned record hpinned hmem => exact generations_markPublished _
      | unheld hpinned => rfl
      | emptied current hpinned hempty => rfl
      | resumed current latest hpinned hlatest => exact generations_markPublished _

theorem unique_performAll (start : World Key Diff) (hstart : start.state.ring = [])
    (ops : List (Op Key Diff)) :
    ((performAll start ops).state.ring.map (·.generation)).Nodup := by
  rw [generations_performAll start hstart]
  exact (newest_suffix _ _).sublist.nodup (List.nodup_dedup _)

theorem bounded_performAll (start : World Key Diff) (hstart : start.state.ring = [])
    (ops : List (Op Key Diff)) : (performAll start ops).state.ring.length ≤ start.capacity := by
  rw [← List.length_map (f := (·.generation)), generations_performAll start hstart]
  exact length_newest_le _ _

/-- The last entry of the ring is the last thing recorded. -/
theorem newest_performAll (start : World Key Diff) (hstart : start.state.ring = [])
    (hcapacity : 0 < start.capacity) (ops : List (Op Key Diff)) :
    (performAll start ops).state.ring.getLast?.map recordingOf = (recordings ops).getLast? := by
  induction ops using List.reverseRecOn with
  | nil =>
      rw [performAll_nil, hstart]
      rfl
  | append_singleton ops op ih =>
      have hroom : 0 < (performAll start ops).capacity := by
        rw [capacity_performAll]
        exact hcapacity
      rw [performAll_concat, state_perform]
      obtain ⟨p, hp, heffect⟩ := exists_effect (performAll start ops) op
      rw [hp]
      cases heffect with
      | live generation digest diff table keys now hpinned =>
          rw [getLast_push hroom, recordings_concat]
          exact List.getLast?_concat.symm
      | heldBack generation digest diff table keys now current hpinned =>
          rw [getLast_push hroom, recordings_concat]
          exact List.getLast?_concat.symm
      | refused generation error => simpa using ih
      | pinned record hpinned hmem =>
          rw [← List.getLast?_map, recordings_markPublished, List.getLast?_map]
          simpa using ih
      | unheld hpinned => simpa using ih
      | emptied current hpinned hempty => simpa using ih
      | resumed current latest hpinned hlatest =>
          rw [← List.getLast?_map, recordings_markPublished, List.getLast?_map]
          simpa using ih

end Listing

section Serving

/-- The generation an operation put on the wire, by what it answered. -/
def carries : Op Key Diff → Outcome → Option Nat
  | .record generation _ _ _ _ _, .recorded true => some generation
  | .pin generation, .pinned (.ok _) => some generation
  | .unpin, .unpinned generation => generation
  | _, _ => none

/-- A pin that was set on a listed record, has stood since, and whose record is on the wire. -/
def HeldSince (start : World Key Diff) (ops : List (Op Key Diff)) (generation : Nat) : Prop :=
  ∃ pre post record, ops = pre ++ .pin generation :: post ∧
    (performAll start pre).state.pinned = none ∧
    (∀ mid, mid <+: post →
      (performAll start (pre ++ .pin generation :: mid)).state.pinned = some generation) ∧
    record ∈ (performAll start pre).state.ring ∧ record.generation = generation ∧
    served (performAll start ops) = (record.keys, record.table)

/-- Some operation put this entry on the wire, and its number was not recorded again since. -/
def PublishedSince (start : World Key Diff) (ops : List (Op Key Diff))
    (entry : GenerationRecord Key Diff) : Prop :=
  ∃ pre op post, ops = pre ++ op :: post ∧
    carries op (planned (performAll start pre) op).outcome = some entry.generation ∧
    served (performAll start (pre ++ [op])) = (entry.keys, entry.table) ∧
    ∀ r ∈ recordings post, r.generation ≠ entry.generation

/-- The table of an entry was on the wire at some point of the run. -/
def WasServed (start : World Key Diff) (ops : List (Op Key Diff))
    (entry : GenerationRecord Key Diff) : Prop :=
  ∃ pre, pre <+: ops ∧ served (performAll start pre) = (entry.keys, entry.table)

/-- What a history promises after a run, for a reading of "this entry was served". -/
structure Exact (start : World Key Diff) (ops : List (Op Key Diff))
    (wasServed : GenerationRecord Key Diff → Prop) : Prop where
  held : ∀ generation, (performAll start ops).state.pinned = some generation →
    HeldSince start ops generation
  latest : (performAll start ops).state.pinned = none → ∀ r, (recordings ops).getLast? = some r →
    served (performAll start ops) = (r.keys, r.table)
  recordLive : ∀ generation digest diff table keys now,
    (planned (performAll start ops) (.record generation digest diff table keys now)).outcome =
      .recorded (performAll start ops).state.pinned.isNone
  published : ∀ entry ∈ (performAll start ops).state.ring,
    (entry.published = true ↔ wasServed entry)
  bounded : (performAll start ops).state.ring.length ≤ start.capacity
  unique : ((performAll start ops).state.ring.map (·.generation)).Nodup
  oldestFirst : (performAll start ops).state.ring.map (·.generation) <:+
    ((recordings ops).map (·.generation)).dedup
  pinRefused : ∀ generation error,
    (planned (performAll start ops) (.pin generation)).outcome = .pinned (.error error) →
      (performAll start (ops ++ [.pin generation])).state = (performAll start ops).state ∧
      served (performAll start (ops ++ [.pin generation])) = served (performAll start ops) ∧
      (planned (performAll start ops) (.pin generation)).announced = none
  unpinned : (performAll start ops).state.pinned ≠ none →
    ∃ r, (recordings ops).getLast? = some r ∧
      (planned (performAll start ops) .unpin).outcome = .unpinned (some r.generation) ∧
      (performAll start (ops ++ [.unpin])).state.pinned = none ∧
      served (performAll start (ops ++ [.unpin])) = (r.keys, r.table)
  unheld : (performAll start ops).state.pinned = none →
    (planned (performAll start ops) .unpin).outcome = .unpinned none ∧
      (performAll start (ops ++ [.unpin])).state = (performAll start ops).state ∧
      served (performAll start (ops ++ [.unpin])) = served (performAll start ops) ∧
      (planned (performAll start ops) .unpin).announced = none

private theorem HeldSince.concat {start : World Key Diff} {ops : List (Op Key Diff)}
    {generation : Nat} {op : Op Key Diff} (h : HeldSince start ops generation)
    (hpinned : (performAll start (ops ++ [op])).state.pinned = some generation)
    (hserved : served (performAll start (ops ++ [op])) = served (performAll start ops)) :
    HeldSince start (ops ++ [op]) generation := by
  obtain ⟨pre, post, record, rfl, hfree, hstood, hmem, hgeneration, hwire⟩ := h
  refine ⟨pre, post ++ [op], record, by simp, hfree, ?_, hmem, hgeneration, hserved.trans hwire⟩
  intro mid hmid
  rcases List.prefix_concat_iff.mp hmid with rfl | hmid
  · simpa using hpinned
  · exact hstood mid hmid

theorem held_performAll (start : World Key Diff) (hstart : start.state.pinned = none)
    (ops : List (Op Key Diff)) (generation : Nat)
    (hpinned : (performAll start ops).state.pinned = some generation) :
    HeldSince start ops generation := by
  induction ops using List.reverseRecOn with
  | nil =>
      rw [performAll_nil, hstart] at hpinned
      cases hpinned
  | append_singleton ops op ih =>
      have hafter := hpinned
      have hserved := served_perform (performAll start ops) op
      obtain ⟨p, hp, heffect⟩ := exists_effect (performAll start ops) op
      rw [performAll_concat, state_perform, hp] at hpinned
      rw [hp, ← performAll_concat] at hserved
      cases heffect with
      | live generation' digest diff table keys now hfree =>
          rw [pinned_push, hfree] at hpinned
          cases hpinned
      | heldBack generation' digest diff table keys now current hcurrent =>
          exact (ih hpinned).concat hafter hserved
      | refused generation' error => exact (ih hpinned).concat hafter hserved
      | pinned record hfree hmem =>
          obtain rfl : record.generation = generation := Option.some.inj hpinned
          refine ⟨ops, [], record, rfl, hfree, ?_, hmem, rfl, hserved⟩
          intro mid hmid
          rw [List.prefix_nil.mp hmid]
          exact hafter
      | unheld hfree => exact (ih hpinned).concat hafter hserved
      | emptied current hcurrent hempty => cases hpinned
      | resumed current latest hcurrent hlatest => cases hpinned

/-- A pin is only ever set on a listed record, so the ring is not empty while one stands. -/
theorem listed_once_pinned (start : World Key Diff) (hring : start.state.ring = [])
    (hstart : start.state.pinned = none) (hcapacity : 0 < start.capacity)
    (ops : List (Op Key Diff)) (hheld : (performAll start ops).state.pinned ≠ none) :
    (performAll start ops).state.ring ≠ [] := by
  intro hempty
  obtain ⟨generation, hpinned⟩ := Option.ne_none_iff_exists'.mp hheld
  obtain ⟨pre, post, record, rfl, -, -, hmem, -, -⟩ := held_performAll start hstart ops generation hpinned
  have hbefore := newest_performAll start hring hcapacity pre
  have hafter := newest_performAll start hring hcapacity (pre ++ .pin generation :: post)
  rw [hempty, List.getLast?_nil, Option.map_none, eq_comm, List.getLast?_eq_none_iff] at hafter
  have hnothing : recordings pre = [] := by
    unfold recordings at hafter ⊢
    rw [List.filterMap_append] at hafter
    exact (List.append_eq_nil_iff.mp hafter).1
  rw [hnothing, List.getLast?_nil, Option.map_eq_none_iff, List.getLast?_eq_none_iff] at hbefore
  rw [hbefore] at hmem
  cases hmem

/-- With nothing pinned, what was recorded last is on the wire. -/
theorem latest_performAll (start : World Key Diff) (hstart : start.state.ring = [])
    (hcapacity : 0 < start.capacity) (ops : List (Op Key Diff))
    (hpinned : (performAll start ops).state.pinned = none) (r : Recording Key)
    (hlast : (recordings ops).getLast? = some r) :
    served (performAll start ops) = (r.keys, r.table) := by
  induction ops using List.reverseRecOn with
  | nil => cases hlast
  | append_singleton ops op ih =>
      have hnewest := newest_performAll start hstart hcapacity ops
      rw [performAll_concat, served_perform]
      rw [performAll_concat, state_perform] at hpinned
      obtain ⟨p, hp, heffect⟩ := exists_effect (performAll start ops) op
      rw [hp] at hpinned ⊢
      cases heffect with
      | live generation digest diff table keys now hfree =>
          rw [recordings_concat, recording?, Option.toList_some, List.getLast?_concat] at hlast
          cases hlast
          rfl
      | heldBack generation digest diff table keys now current hcurrent =>
          rw [pinned_push, hcurrent] at hpinned
          cases hpinned
      | refused generation error => exact ih hpinned (by simpa using hlast)
      | pinned record hfree hmem => cases hpinned
      | unheld hfree => exact ih hpinned (by simpa using hlast)
      | emptied current hcurrent hempty =>
          rw [recordings_concat_unpin, ← hnewest, hempty] at hlast
          cases hlast
      | resumed current latest hcurrent hlatest =>
          rw [recordings_concat_unpin, ← hnewest, hlatest] at hlast
          cases hlast
          rfl

private theorem publishedSince_concat (start : World Key Diff) (ops : List (Op Key Diff))
    (op : Op Key Diff) (entry : GenerationRecord Key Diff) :
    PublishedSince start (ops ++ [op]) entry ↔
      (carries op (planned (performAll start ops) op).outcome = some entry.generation ∧
        served (performAll start (ops ++ [op])) = (entry.keys, entry.table)) ∨
      (PublishedSince start ops entry ∧ ∀ r, recording? op = some r →
        r.generation ≠ entry.generation) := by
  constructor
  · rintro ⟨pre, op', post, hops, hcarries, hserved, hlater⟩
    rcases List.eq_nil_or_concat post with rfl | ⟨post, last, rfl⟩
    · obtain ⟨rfl, hop⟩ := List.append_inj' hops rfl
      cases hop
      exact .inl ⟨hcarries, hserved⟩
    · rw [List.concat_eq_append] at hops hlater
      have hsplit : ops ++ [op] = (pre ++ op' :: post) ++ [last] := by simpa using hops
      obtain ⟨rfl, hop⟩ := List.append_inj' hsplit rfl
      cases hop
      rw [recordings_concat] at hlater
      refine .inr ⟨⟨pre, op', post, rfl, hcarries, hserved, fun r hr => ?_⟩, fun r hr => ?_⟩
      · exact hlater r (List.mem_append_left _ hr)
      · exact hlater r (List.mem_append_right _ (by rw [hr]; simp))
  · rintro (⟨hcarries, hserved⟩ | ⟨⟨pre, op', post, rfl, hcarries, hserved, hlater⟩, hother⟩)
    · exact ⟨ops, op, [], rfl, hcarries, hserved, fun r hr => by cases hr⟩
    · refine ⟨pre, op', post ++ [op], by simp, hcarries, hserved, fun r hr => ?_⟩
      rw [recordings_concat] at hr
      rcases List.mem_append.mp hr with hr | hr
      · exact hlater r hr
      · exact hother r (by simpa using hr)

private theorem published_of_silent {start : World Key Diff} {ops : List (Op Key Diff)}
    {op : Op Key Diff} {entry : GenerationRecord Key Diff} {outcome : Outcome}
    {wire : CertKeys Key × RouteTable}
    (hkept : entry.published = true ↔ PublishedSince start ops entry)
    (hcarries : carries op outcome = none) (hrecording : recording? op = none) :
    entry.published = true ↔
      (carries op outcome = some entry.generation ∧ wire = (entry.keys, entry.table)) ∨
      (PublishedSince start ops entry ∧ ∀ r, recording? op = some r →
        r.generation ≠ entry.generation) := by
  rw [hkept, hcarries, hrecording]
  simp

private theorem published_of_other {start : World Key Diff} {ops : List (Op Key Diff)}
    {op : Op Key Diff} {entry : GenerationRecord Key Diff} {outcome : Outcome} {generation : Nat}
    {wire : CertKeys Key × RouteTable}
    (hkept : entry.published = true ↔ PublishedSince start ops entry)
    (hcarries : carries op outcome = some generation) (hne : entry.generation ≠ generation)
    (hother : ∀ r, recording? op = some r → r.generation = generation) :
    entry.published = true ↔
      (carries op outcome = some entry.generation ∧ wire = (entry.keys, entry.table)) ∨
      (PublishedSince start ops entry ∧ ∀ r, recording? op = some r →
        r.generation ≠ entry.generation) := by
  rw [hkept, hcarries]
  constructor
  · intro h
    refine .inr ⟨h, fun r hr hsame => hne ?_⟩
    rw [← hsame, hother r hr]
  · rintro (⟨hsame, -⟩ | ⟨h, -⟩)
    · exact absurd (Option.some.inj hsame).symm hne
    · exact h

/-- An entry says published exactly when an operation has put it on the wire since it was
recorded. -/
theorem published_performAll (start : World Key Diff) (hstart : start.state.ring = [])
    (ops : List (Op Key Diff)) (entry : GenerationRecord Key Diff)
    (hentry : entry ∈ (performAll start ops).state.ring) :
    entry.published = true ↔ PublishedSince start ops entry := by
  induction ops using List.reverseRecOn generalizing entry with
  | nil =>
      rw [performAll_nil, hstart] at hentry
      cases hentry
  | append_singleton ops op ih =>
      have hunique := unique_performAll start hstart ops
      have hserved := served_perform (performAll start ops) op
      rw [publishedSince_concat]
      obtain ⟨p, hp, heffect⟩ := exists_effect (performAll start ops) op
      rw [performAll_concat, state_perform, hp] at hentry
      rw [hp, ← performAll_concat] at hserved
      rw [hp, hserved]
      cases heffect with
      | live generation digest diff table keys now hfree =>
          rcases mem_ring_push hentry with rfl | ⟨hold, hne⟩
          · exact ⟨fun _ => .inl ⟨rfl, rfl⟩, fun _ => rfl⟩
          · refine published_of_other (ih entry hold) rfl hne fun r hr => ?_
            cases hr
            rfl
      | heldBack generation digest diff table keys now current hcurrent =>
          rcases mem_ring_push hentry with rfl | ⟨hold, hne⟩
          · refine ⟨fun h => Bool.noConfusion h, ?_⟩
            rintro (⟨hcarries, -⟩ | ⟨-, hother⟩)
            · cases hcarries
            · exact absurd rfl (hother _ rfl)
          · rw [ih entry hold]
            refine ⟨fun h => .inr ⟨h, fun r hr => ?_⟩, ?_⟩
            · cases hr
              exact fun hsame => hne hsame.symm
            · rintro (⟨hcarries, -⟩ | ⟨h, -⟩)
              · cases hcarries
              · exact h
      | refused generation error => exact published_of_silent (ih entry hentry) rfl rfl
      | pinned record hfree hmem =>
          obtain ⟨held, hheld, ⟨hsame, rfl⟩ | ⟨hne, rfl⟩⟩ := mem_ring_markPublished hentry
          · obtain rfl := eq_of_generation hunique hheld hmem hsame
            exact ⟨fun _ => .inl ⟨rfl, rfl⟩, fun _ => rfl⟩
          · exact published_of_other (ih _ hheld) rfl hne fun r hr => nomatch hr
      | unheld hfree => exact published_of_silent (ih entry hentry) rfl rfl
      | emptied current hcurrent hempty =>
          exact published_of_silent (ih entry hentry) rfl rfl
      | resumed current latest hcurrent hlatest =>
          have hmem : latest ∈ (performAll start ops).state.ring := List.mem_of_getLast? hlatest
          obtain ⟨held, hheld, ⟨hsame, rfl⟩ | ⟨hne, rfl⟩⟩ := mem_ring_markPublished hentry
          · obtain rfl := eq_of_generation hunique hheld hmem hsame
            exact ⟨fun _ => .inl ⟨rfl, rfl⟩, fun _ => rfl⟩
          · exact published_of_other (ih _ hheld) rfl hne fun r hr => nomatch hr

/-- After every run from an empty history each promise holds, where an entry counts as served once
an operation has put it on the wire since its recording. -/
theorem history_exact (table : RouteTable) (certs : CertStore Key) (capacity : Nat) (notify : Bool)
    (ops : List (Op Key Diff)) :
    Exact (World.new table certs capacity notify) ops
      (PublishedSince (World.new table certs capacity notify) ops) where
  held := held_performAll _ rfl ops
  latest := latest_performAll _ rfl (World.capacity_new_pos table certs capacity notify) ops
  recordLive := fun _ _ _ _ _ _ => rfl
  published := published_performAll _ rfl ops
  bounded := bounded_performAll _ rfl ops
  unique := unique_performAll _ rfl ops
  oldestFirst := by
    rw [generations_performAll _ rfl]
    exact newest_suffix _ _
  pinRefused := by
    intro generation error hrefused
    rw [performAll_concat, state_perform, served_perform]
    obtain ⟨p, hp, heffect⟩ := exists_effect
      (performAll (World.new table certs capacity notify) ops) (.pin generation)
    rw [hp] at hrefused ⊢
    cases heffect with
    | refused _ _ => exact ⟨rfl, rfl, rfl⟩
    | pinned record _ _ => cases hrefused
  unpinned := by
    intro hheld
    have hnewest := newest_performAll _ rfl
      (World.capacity_new_pos table certs capacity notify) ops
    have hlisted := listed_once_pinned _ rfl rfl
      (World.capacity_new_pos table certs capacity notify) ops hheld
    rw [performAll_concat, state_perform, served_perform]
    obtain ⟨p, hp, heffect⟩ := exists_effect
      (performAll (World.new table certs capacity notify) ops) .unpin
    rw [hp]
    cases heffect with
    | unheld hfree => exact absurd hfree hheld
    | emptied current _ hempty => exact absurd hempty hlisted
    | resumed current latest _ hlatest =>
        rw [hlatest] at hnewest
        exact ⟨recordingOf latest, hnewest.symm, rfl, rfl, rfl⟩
  unheld := by
    intro hfree
    rw [performAll_concat, state_perform, served_perform]
    obtain ⟨p, hp, heffect⟩ := exists_effect
      (performAll (World.new table certs capacity notify) ops) .unpin
    rw [hp]
    cases heffect with
    | unheld _ => exact ⟨rfl, rfl, rfl, rfl⟩
    | emptied current hcurrent _ => rw [hfree] at hcurrent; cases hcurrent
    | resumed current latest hcurrent _ => rw [hfree] at hcurrent; cases hcurrent

section Replayed

/-- A table that serves nothing. -/
def emptyTable (generation : Nat) : RouteTable := { generation := generation }

/-- The pinned generation is recorded once more, as it was, while it is on the wire. -/
def replayed : List (Op Nat Unit) :=
  [.record 1 1 () (emptyTable 1) [] 0, .pin 1, .record 1 1 () (emptyTable 1) [] 1]

/-- The entry recorded behind the pin says unpublished although its table is on the wire. -/
theorem replayed_not_exact : ¬ ∀ (table : RouteTable) (certs : CertStore Nat) (capacity : Nat)
    (notify : Bool) (ops : List (Op Nat Unit)),
    Exact (World.new table certs capacity notify) ops
      (WasServed (World.new table certs capacity notify) ops) := by
  intro h
  have hexact := h {} ⟨[]⟩ 10 false replayed
  have hpublished := hexact.published ⟨1, 1, false, 1, (), emptyTable 1, []⟩
    (List.mem_singleton_self _)
  exact Bool.noConfusion (hpublished.mpr ⟨replayed, List.prefix_refl _, rfl⟩)

end Replayed

end Serving

section Pinned

/-- One whole operation is one step of a run. -/
def stepOp (w : World Key Diff) (op : Op Key Diff) : Option (World Key Diff) := some (perform w op)

/-- The pinned generation is in the ring, and a release would leave it there to be pinned again. -/
def Listed (w : World Key Diff) : Prop :=
  ∀ generation, w.state.pinned = some generation →
    (∃ record ∈ w.state.ring, record.generation = generation) ∧
      (planned (perform w .unpin) (.pin generation)).outcome = .pinned (.ok ())

/-- A recording under a pin has room, replaces what is held under its own number, or lets go of
another generation than the pinned one. -/
def KeepsPinned (w : World Key Diff) : Op Key Diff → Prop
  | .record generation _ _ _ _ _ => ∀ pinned, w.state.pinned = some pinned →
      w.state.ring.length < w.capacity ∨ generation ∈ w.state.ring.map (·.generation) ∨
        (w.state.ring.map (·.generation)).head? ≠ some pinned
  | _ => True

/-- What every run keeps of the ring. -/
structure Bounded (w : World Key Diff) : Prop where
  room : 0 < w.capacity
  bounded : w.state.ring.length ≤ w.capacity
  unique : (w.state.ring.map (·.generation)).Nodup

private theorem bounded_step (w : World Key Diff) (op : Op Key Diff) (w' : World Key Diff)
    (hw : Bounded w) (h : stepOp w op = some w') : Bounded w' := by
  cases h
  obtain ⟨hroom, hbounded, hunique⟩ := hw
  have hcapacity : (perform w op).capacity = w.capacity := capacity_perform w op
  suffices hring : (perform w op).state.ring.map (·.generation) =
      w.state.ring.map (·.generation) ∨ ∃ generation,
        (perform w op).state.ring.map (·.generation) =
          touch w.capacity (w.state.ring.map (·.generation)) generation by
    rcases hring with hsame | ⟨generation, htouch⟩
    · refine ⟨by rw [hcapacity]; exact hroom, ?_, by rw [hsame]; exact hunique⟩
      rw [hcapacity, ← List.length_map (f := (·.generation)), hsame, List.length_map]
      exact hbounded
    · refine ⟨by rw [hcapacity]; exact hroom, ?_, by rw [htouch]; exact nodup_touch hunique _⟩
      rw [hcapacity, ← List.length_map (f := (·.generation)), htouch]
      exact length_newest_le _ _
  rw [state_perform]
  obtain ⟨p, hp, heffect⟩ := exists_effect w op
  rw [hp]
  cases heffect with
  | live generation digest diff table keys now hfree => exact .inr ⟨generation, generations_push⟩
  | heldBack generation digest diff table keys now current hcurrent =>
      exact .inr ⟨generation, generations_push⟩
  | refused generation error => exact .inl rfl
  | pinned record hfree hmem => exact .inl (generations_markPublished _)
  | unheld hfree => exact .inl rfl
  | emptied current hcurrent hempty => exact .inl rfl
  | resumed current latest hcurrent hlatest => exact .inl (generations_markPublished _)

/-- What is listed under a pin can be pinned again after a release. -/
private theorem repinned {w : World Key Diff} {generation : Nat}
    (hpinned : w.state.pinned = some generation)
    (hlisted : generation ∈ w.state.ring.map (·.generation)) :
    (planned (perform w .unpin) (.pin generation)).outcome = .pinned (.ok ()) := by
  have hafter : (perform w .unpin).state.pinned = none ∧
      generation ∈ (perform w .unpin).state.ring.map (·.generation) := by
    rw [state_perform]
    obtain ⟨p, hp, heffect⟩ := exists_effect w .unpin
    rw [hp]
    cases heffect with
    | unheld hfree => rw [hfree] at hpinned; cases hpinned
    | emptied current hcurrent hempty => exact ⟨rfl, hlisted⟩
    | resumed current latest hcurrent hlatest =>
        refine ⟨rfl, ?_⟩
        rw [generations_markPublished]
        exact hlisted
  obtain ⟨hfree, hmem⟩ := hafter
  obtain ⟨record, hrecord, hsame⟩ := List.mem_map.mp hmem
  have hfound : ((perform w .unpin).state.ring.find? fun held =>
      held.generation == generation).isSome = true := by
    rw [List.find?_isSome]
    exact ⟨record, hrecord, by simpa using hsame⟩
  obtain ⟨found, hfound⟩ := Option.isSome_iff_exists.mp hfound
  change (planPin _ _ _).outcome = _
  rw [planPin, hfree]
  simp only
  rw [hfound]

private theorem listed_iff (w : World Key Diff) : Listed w ↔ ∀ generation,
    w.state.pinned = some generation → generation ∈ w.state.ring.map (·.generation) := by
  constructor
  · intro h generation hpinned
    exact List.mem_map.mpr (h generation hpinned).1
  · intro h generation hpinned
    exact ⟨List.mem_map.mp (h generation hpinned), repinned hpinned (h generation hpinned)⟩

/-- A step keeps the pinned generation listed exactly when its recording does not evict it. -/
private theorem listed_step (w : World Key Diff) (op : Op Key Diff) (w' : World Key Diff)
    (hw : Bounded w) (hlisted : Listed w) (h : stepOp w op = some w') :
    Listed w' ↔ KeepsPinned w op := by
  cases h
  rw [listed_iff] at hlisted ⊢
  rw [state_perform]
  obtain ⟨p, hp, heffect⟩ := exists_effect w op
  rw [hp]
  cases heffect with
  | live generation digest diff table keys now hfree =>
      refine iff_of_true (fun pinned hpinned => ?_) (fun pinned hpinned => ?_)
      · rw [pinned_push, hfree] at hpinned
        cases hpinned
      · rw [hfree] at hpinned
        cases hpinned
  | heldBack generation digest diff table keys now current hcurrent =>
      rw [pinned_push, generations_push]
      simp only [KeepsPinned]
      refine forall_congr' fun pinned => forall_congr' fun hpinned => ?_
      rw [mem_touch hw.unique (by rw [List.length_map]; exact hw.bounded)
        (hlisted pinned hpinned), List.length_map]
  | refused generation error => exact iff_of_true hlisted trivial
  | pinned record hfree hmem =>
      refine iff_of_true (fun pinned hpinned => ?_) trivial
      rw [generations_markPublished]
      cases hpinned
      exact List.mem_map.mpr ⟨record, hmem, rfl⟩
  | unheld hfree => exact iff_of_true hlisted trivial
  | emptied current hcurrent hempty => exact iff_of_true (fun _ hpinned => nomatch hpinned) trivial
  | resumed current latest hcurrent hlatest =>
      exact iff_of_true (fun _ hpinned => nomatch hpinned) trivial

/-- In a run from an empty history the pinned generation is listed, at every point, exactly when
no recording behind a pin finds the ring full, under a new number, with the pinned generation
oldest. -/
theorem pinned_listed_iff (table : RouteTable) (certs : CertStore Key) (capacity : Nat)
    (notify : Bool) (ops : List (Op Key Diff)) :
    Always stepOp Listed (World.new table certs capacity notify) ops ↔
      Meets stepOp KeepsPinned (World.new table certs capacity notify) ops := by
  have hbounded : Bounded (World.new table certs capacity notify : World Key Diff) :=
    ⟨World.capacity_new_pos table certs capacity notify, Nat.zero_le _, List.nodup_nil⟩
  have hlisted : Listed (World.new table certs capacity notify : World Key Diff) :=
    fun _ hpinned => nomatch hpinned
  exact always_iff_meets bounded_step (fun _ _ _ h => nomatch h) listed_step hbounded hlisted ops

/-- A pin on the first generation, and then as many more as the ring holds. -/
def longPin : List (Op Nat Unit) :=
  .record 1 1 () (emptyTable 1) [] 0 :: .pin 1 ::
    (List.range DEFAULT_HISTORY_SIZE).map fun i => .record (i + 2) 1 () (emptyTable (i + 2)) [] 0

/-- Ten generations behind a pin evict the generation being served. -/
theorem pinned_evicted : ¬ Always stepOp Listed
    (World.new {} ⟨([] : CertKeys Nat)⟩ DEFAULT_HISTORY_SIZE false : World Nat Unit) longPin := by
  intro h
  obtain ⟨w, hrun, hpinned, hring⟩ : ∃ w, run stepOp
      (World.new {} ⟨([] : CertKeys Nat)⟩ DEFAULT_HISTORY_SIZE false : World Nat Unit) longPin =
        some w ∧ w.state.pinned = some 1 ∧
        w.state.ring.map (·.generation) = [2, 3, 4, 5, 6, 7, 8, 9, 10, 11] := ⟨_, rfl, rfl, rfl⟩
  obtain ⟨⟨record, hmem, hsame⟩, -⟩ := good_of_always h hrun 1 hpinned
  have hlisted : 1 ∈ w.state.ring.map (·.generation) := List.mem_map.mpr ⟨record, hmem, hsame⟩
  rw [hring] at hlisted
  exact absurd hlisted (by decide)

end Pinned

end Ramjet.Proxy.Rollback
