/- digest: The compiled order of a host's rules answers as the declared precedence does. -/

import Ramjet.Router.Reference

set_option autoImplicit false
set_option relaxedAutoImplicit false

namespace Ramjet.Router.PathOrder

open Ramjet.Base.Octets
open Ramjet.Base.AssocMap
open Ramjet.Base.FirstHit
open Ramjet.Base.Segments
open Ramjet.Router.Balancing
open Ramjet.Router.Rule
open Ramjet.Router.Builder
open Ramjet.Router.Reference

theorem trimSlashes_starts (path : Bytes) : trimSlashes path <+: path :=
  List.rdropWhile_prefix _ path

/-- The compiled prefix test is the segment-wise one. -/
theorem prefixMatches_iff (rulePath path : Bytes) :
    prefixMatches rulePath (prefixMatchLen rulePath) path = true ↔
      ruleSegments rulePath <+: path.splitOn 47 := by
  obtain ⟨slashes, hslashes⟩ := trimSlashes_starts rulePath
  have htake : rulePath.take (prefixMatchLen rulePath) = trimSlashes rulePath := by
    have htaken : (trimSlashes rulePath ++ slashes).take (trimSlashes rulePath).length =
        trimSlashes rulePath := List.take_left
    rwa [hslashes] at htaken
  have hlen : prefixMatchLen rulePath ≤ rulePath.length :=
    (trimSlashes_starts rulePath).length_le
  rw [ruleSegments, splitOn_covers_iff]
  simp only [prefixMatches, htake, Bool.and_eq_true, Bool.or_eq_true, decide_eq_true_eq,
    beq_iff_eq]
  refine ⟨?_, ?_⟩
  · rintro ⟨⟨⟨hle, -⟩, hhead⟩, hend⟩
    have hsplit : path = trimSlashes rulePath ++ path.drop (prefixMatchLen rulePath) := by
      rw [← hhead, List.take_append_drop]
    rcases hend with hend | hend
    · left
      rw [hsplit, List.drop_eq_nil_of_le (by omega), List.append_nil]
    · right
      obtain ⟨hlt, hget⟩ := List.getElem?_eq_some_iff.mp hend
      refine ⟨path.drop (prefixMatchLen rulePath + 1), ?_⟩
      rw [← hget, List.getElem_cons_drop]
      exact hsplit
  · rintro (rfl | ⟨rest, rfl⟩)
    · exact ⟨⟨⟨le_rfl, hlen⟩, List.take_length⟩, Or.inl rfl⟩
    · refine ⟨⟨⟨?_, hlen⟩, List.take_left⟩, Or.inr ?_⟩
      · simp [prefixMatchLen]
      · simp [prefixMatchLen]

/-- What the builder has checked of a draft, and what its 32-bit match length can hold. -/
structure DraftOk (d : RouteDraft) : Prop where
  regex_eq : d.pathType = .implementationSpecific → d.regex = some (pathRegex d.path)
  short : d.pathType = .prefixed → prefixMatchLen d.path < U32_SIZE

/-- A rule that compares paths as its draft declares. -/
structure Freezes (d : RouteDraft) (rule : PathRule) : Prop where
  path_eq : rule.path = d.path
  type_eq : rule.pathType = d.pathType
  regex_eq : rule.regex = d.regex
  len_eq : rule.matchLen =
    match d.pathType with
    | .prefixed => prefixMatchLen d.path % U32_SIZE
    | _ => 0

section Matching

variable (rx : RegexEngine) (path : Bytes) {d : RouteDraft} {rule : PathRule}

theorem matches_eq (hd : DraftOk d) (h : Freezes d rule) :
    rule.matches rx path =
      (matchesExactly path d || matchesSegments path d || matchesPattern rx path d) := by
  unfold PathRule.matches matchesExactly matchesSegments matchesPattern
  rw [h.type_eq]
  cases htype : d.pathType with
  | exact =>
      rw [h.path_eq]
      simp only [reduceCtorEq, false_and, decide_false, Bool.or_false, true_and]
      rw [Bool.eq_iff_iff, beq_iff_eq, decide_eq_true_iff]
      exact eq_comm
  | prefixed =>
      have hlen : rule.matchLen = prefixMatchLen d.path := by
        rw [h.len_eq, htype]
        exact Nat.mod_eq_of_lt (hd.short htype)
      rw [h.path_eq, hlen]
      simp only [reduceCtorEq, false_and, decide_false, Bool.false_or, true_and, Bool.or_false]
      rw [Bool.eq_iff_iff, prefixMatches_iff, decide_eq_true_iff]
  | implementationSpecific =>
      rw [h.regex_eq, hd.regex_eq htype]
      simp

end Matching

section Order

variable {rx : RegexEngine} {path : Bytes} {drafts : List RouteDraft}
  {freeze : RouteDraft → PathRule}

private theorem sortKey_lt_of_rank {a b : PathRule} (h : a.pathType.rank < b.pathType.rank) :
    a.sortKey < b.sortKey := Prod.Lex.toLex_lt_toLex.mpr (Or.inl h)

private theorem sortKey_le_iff {a b : PathRule} (h : a.pathType = b.pathType) :
    a.sortKey ≤ b.sortKey ↔ b.matchLen ≤ a.matchLen := by
  rw [PathRule.sortKey, PathRule.sortKey, Prod.Lex.toLex_le_toLex, h]
  simp

private theorem matchLen_eq_of_not_prefixed {d : RouteDraft} {rule : PathRule}
    (h : Freezes d rule) (htype : d.pathType ≠ .prefixed) : rule.matchLen = 0 := by
  rw [h.len_eq]
  split
  · exact absurd ‹_› htype
  · rfl

private theorem rank_of_exact {d : RouteDraft} (h : matchesExactly path d = true) :
    d.pathType = .exact := by
  unfold matchesExactly at h
  simp only [decide_eq_true_eq] at h
  exact h.1

private theorem rank_of_segments {d : RouteDraft} (h : matchesSegments path d = true) :
    d.pathType = .prefixed ∧ ruleSegments d.path <+: path.splitOn 47 := by
  unfold matchesSegments at h
  simpa only [decide_eq_true_eq] using h

private theorem rank_of_pattern {d : RouteDraft} (h : matchesPattern rx path d = true) :
    d.pathType = .implementationSpecific := by
  unfold matchesPattern at h
  simp only [decide_eq_true_eq] at h
  exact h.1

/-- Among the prefix rules that match, longer and more segments are the same order. -/
private theorem segments_order (hfreeze : ∀ d ∈ drafts, Freezes d (freeze d))
    (hok : ∀ d ∈ drafts, DraftOk d) :
    ∀ d ∈ drafts.filter (matchesSegments path), ∀ e ∈ drafts.filter (matchesSegments path),
      ((freeze d).sortKey ≤ (freeze e).sortKey ↔
        OrderDual.toDual (ruleSegments d.path).length ≤
          OrderDual.toDual (ruleSegments e.path).length) := by
  intro d hd e he
  obtain ⟨hdmem, hdmatch⟩ := List.mem_filter.mp hd
  obtain ⟨hemem, hematch⟩ := List.mem_filter.mp he
  obtain ⟨hdtype, hdseg⟩ := rank_of_segments hdmatch
  obtain ⟨hetype, heseg⟩ := rank_of_segments hematch
  have hlen : ∀ c ∈ drafts, c.pathType = .prefixed →
      (freeze c).matchLen = (trimSlashes c.path).length := by
    intro c hc htype
    rw [(hfreeze c hc).len_eq, htype]
    exact Nat.mod_eq_of_lt ((hok c hc).short htype)
  have htypes : (freeze d).pathType = (freeze e).pathType := by
    rw [(hfreeze d hdmem).type_eq, (hfreeze e hemem).type_eq, hdtype, hetype]
  rw [sortKey_le_iff htypes, hlen d hdmem hdtype, hlen e hemem hetype, OrderDual.toDual_le_toDual]
  have hlt := length_lt_iff_segments_lt hdseg heseg
  simp only [ruleSegments]
  rw [← not_lt, ← not_lt, hlt]

private theorem pickRule_eq_or (rules : List RouteDraft) :
    pickRule rx rules path =
      (rules.find? (matchesExactly path)).or
        ((firstMin (fun d => OrderDual.toDual (ruleSegments d.path).length)
          (rules.filter (matchesSegments path))).or (rules.find? (matchesPattern rx path))) := by
  unfold pickRule
  cases rules.find? (matchesExactly path) with
  | some d => rfl
  | none =>
      cases firstMin (fun d => OrderDual.toDual (ruleSegments d.path).length)
          (rules.filter (matchesSegments path)) <;> rfl

/-- Rules of one precedence class that carries no length are tried in registration order. -/
private theorem firstMin_class (hfreeze : ∀ d ∈ drafts, Freezes d (freeze d))
    {q : RouteDraft → Bool} (kind : PathType) (hkind : kind ≠ .prefixed)
    (hq : ∀ d, q d = true → d.pathType = kind) :
    firstMin (fun d => (freeze d).sortKey) (drafts.filter q) = drafts.find? q := by
  rw [firstMin_const, List.head?_filter]
  intro d hd e he
  obtain ⟨hdmem, hdq⟩ := List.mem_filter.mp hd
  obtain ⟨hemem, heq⟩ := List.mem_filter.mp he
  have hdfreeze := hfreeze d hdmem
  have hefreeze := hfreeze e hemem
  have htypes : (freeze d).pathType = (freeze e).pathType := by
    rw [hdfreeze.type_eq, hefreeze.type_eq, hq d hdq, hq e heq]
  rw [sortKey_le_iff htypes, matchLen_eq_of_not_prefixed hdfreeze (hq d hdq ▸ hkind),
    matchLen_eq_of_not_prefixed hefreeze (hq e heq ▸ hkind)]

private theorem firstMin_pickRule (hfreeze : ∀ d ∈ drafts, Freezes d (freeze d))
    (hok : ∀ d ∈ drafts, DraftOk d) :
    firstMin (fun d => (freeze d).sortKey)
        (drafts.filter ((fun rule => rule.matches rx path) ∘ freeze)) = pickRule rx drafts path := by
  have hmatches : ∀ d ∈ drafts, ((fun rule => rule.matches rx path) ∘ freeze) d =
      (matchesExactly path d || (matchesSegments path d || matchesPattern rx path d)) := by
    intro d hd
    rw [← Bool.or_assoc]
    exact matches_eq rx path (hok d hd) (hfreeze d hd)
  have hlt : ∀ d ∈ drafts, ∀ e ∈ drafts, d.pathType.rank < e.pathType.rank →
      (freeze d).sortKey < (freeze e).sortKey := by
    intro d hd e he hrank
    refine sortKey_lt_of_rank ?_
    rwa [(hfreeze d hd).type_eq, (hfreeze e he).type_eq]
  have hrest : ∀ d, matchesExactly path d = false →
      (matchesSegments path d || matchesPattern rx path d) = true → 1 ≤ d.pathType.rank := by
    intro d _ hd
    rcases Bool.or_eq_true_iff.mp hd with hd | hd
    · rw [(rank_of_segments hd).1]
      decide
    · rw [rank_of_pattern hd]
      decide
  rw [List.filter_congr hmatches, pickRule_eq_or]
  -- The exact rules are searched first, the prefix rules next, the patterns last.
  have hexact := firstMin_stage (fun d => (freeze d).sortKey) (l := drafts)
    (p := fun d => matchesExactly path d || (matchesSegments path d || matchesPattern rx path d))
    (q := matchesExactly path) (by
      intro d hd e he _ hdq hep heq
      refine hlt d hd e he ?_
      rw [heq, Bool.false_or] at hep
      have hrank := hrest e heq hep
      rw [rank_of_exact hdq]
      exact hrank)
  have hsegments := firstMin_stage (fun d => (freeze d).sortKey) (l := drafts)
    (p := fun d => matchesSegments path d || matchesPattern rx path d)
    (q := matchesSegments path) (by
      intro d hd e he _ hdq hep heq
      refine hlt d hd e he ?_
      rw [heq, Bool.false_or] at hep
      rw [(rank_of_segments hdq).1, rank_of_pattern hep]
      decide)
  have h1 : drafts.filter (fun d => (matchesExactly path d ||
      (matchesSegments path d || matchesPattern rx path d)) && matchesExactly path d) =
        drafts.filter (matchesExactly path) :=
    List.filter_congr fun d _ => by cases matchesExactly path d <;> simp
  have h2 : drafts.filter (fun d => (matchesExactly path d ||
      (matchesSegments path d || matchesPattern rx path d)) && !matchesExactly path d) =
        drafts.filter (fun d => matchesSegments path d || matchesPattern rx path d) := by
    refine List.filter_congr fun d _ => ?_
    cases hE : matchesExactly path d with
    | false => simp
    | true =>
        have hS : matchesSegments path d = false := by
          rw [Bool.eq_false_iff]
          intro hS
          exact absurd ((rank_of_segments hS).1.symm.trans (rank_of_exact hE)) (by decide)
        have hP : matchesPattern rx path d = false := by
          rw [Bool.eq_false_iff]
          intro hP
          exact absurd ((rank_of_pattern hP).symm.trans (rank_of_exact hE)) (by decide)
        simp [hS, hP]
  have h3 : drafts.filter (fun d => (matchesSegments path d || matchesPattern rx path d) &&
      matchesSegments path d) = drafts.filter (matchesSegments path) :=
    List.filter_congr fun d _ => by cases matchesSegments path d <;> simp
  have h4 : drafts.filter (fun d => (matchesSegments path d || matchesPattern rx path d) &&
      !matchesSegments path d) = drafts.filter (matchesPattern rx path) := by
    refine List.filter_congr fun d _ => ?_
    cases hS : matchesSegments path d with
    | false => simp
    | true =>
        have hP : matchesPattern rx path d = false := by
          rw [Bool.eq_false_iff]
          intro hP
          exact absurd ((rank_of_pattern hP).symm.trans (rank_of_segments hS).1) (by decide)
        simp [hP]
  rw [hexact, h1, h2, hsegments, h3, h4,
    firstMin_class hfreeze .exact (by decide) (fun _ => rank_of_exact),
    firstMin_class hfreeze .implementationSpecific (by decide) (fun _ => rank_of_pattern),
    firstMin_congr _ (segments_order hfreeze hok)]

/-- The first hit of the sorted rules is the rule the declared precedence picks. -/
theorem find?_sorted (hfreeze : ∀ d ∈ drafts, Freezes d (freeze d))
    (hok : ∀ d ∈ drafts, DraftOk d) :
    ((drafts.map freeze).insertionSort fun a b => a.sortKey ≤ b.sortKey).find?
        (fun rule => rule.matches rx path) = (pickRule rx drafts path).map freeze := by
  rw [find?_insertionSort, List.filter_map, firstMin_map]
  congr 1
  exact firstMin_pickRule hfreeze hok

end Order

end Ramjet.Router.PathOrder
