/- digest: The clock a promotion pass adds its intervals on, and the sums it cannot hold. -/

import Ramjet.Ingressd.StepWeights

set_option autoImplicit false
set_option relaxedAutoImplicit false

namespace Ramjet.Ingressd.Deadlines

open Ramjet.Base.Octets
open Ramjet.Base.Text
open Ramjet.Base.AssocMap
open Ramjet.Controller.Objects
open Ramjet.Controller.Annotations
open Ramjet.Controller.Config
open Ramjet.Ingressd.Promotion
open Ramjet.Ingressd.PromoterSafety
open Ramjet.Ingressd.Rearming

section Intervals

variable {F : Type} (fl : Floats F)

private theorem parseDuration_pos {raw : Bytes} {interval : Nat}
    (h : parseDuration raw = some interval) : 0 < interval := by
  unfold parseDuration at h
  obtain ⟨⟨value, multiplier⟩, hparts, h⟩ := Option.bind_eq_some_iff.mp h
  obtain ⟨seconds, hseconds, h⟩ := Option.bind_eq_some_iff.mp h
  have hmultiplier : 0 < multiplier := by
    unfold durationParts at hparts
    split at hparts <;> cases hparts <;> decide
  split at h
  · rename_i hpos
    cases h
    exact lt_min (Nat.mul_pos hpos hmultiplier) (by decide)
  · cases h

/-- No annotation makes the loop spin. -/
theorem interval_pos (annotations : Annotations) :
    0 < (PromotionAnnotations.parse fl annotations).interval := by
  simp only [PromotionAnnotations.parse, readOr]
  split
  · decide
  · split
    · rename_i interval hinterval
      exact parseDuration_pos hinterval
    · decide

end Intervals

section Clock

variable {F : Type} (rates : Rates F)

/-- A later instant; a clock whose last one is before it aborts. -/
def instantAdd (last instant duration : Nat) : Option Nat :=
  if instant + duration ≤ last then some (instant + duration) else none

/-- One target of a pass, on a clock that has a last instant. -/
def passOverOn (last now : Nat) (g : Progress F) (visit : Visit F) : Option (Progress F) :=
  let key := visit.target.ingress
  if isFinished visit.target.policy || g.promoter.finished.contains key then some g
  else
    let deadline := (get g.promoter.due key).getD now
    if now < deadline then
      some { g with
        promoter := { g.promoter with due := insert g.promoter.due key deadline }
        next := min g.next (deadline - now) }
    else do
      let interval := visit.target.policy.interval * NANOS
      let deadline ← instantAdd last now interval
      let due := insert g.promoter.due key deadline
      let (promoter, report) := evaluate rates { g.promoter with due := due } visit
      return { promoter := promoter, next := min g.next interval, reports := g.reports ++ [report] }

/-- One pass, on a clock that has a last instant. -/
def passOn (last : Nat) (pinned : Bool) (now : Nat) (p : Promoter) (visits : List (Visit F)) :
    Option (Promoter × Nat × List (Report F)) :=
  if pinned then some ({ p with pinnedReported := true }, IDLE_POLL, [])
  else do
    let p := { p with pinnedReported := false }
    let g ← visits.foldlM (passOverOn rates last now) ⟨p.forget (liveKeys visits), IDLE_POLL, []⟩
    return (g.promoter, max g.next MIN_TICK, g.reports)

/-- A target that a pass would evaluate: not finished, and its deadline has come. -/
structure Open (now : Nat) (p : Promoter) (visit : Visit F) : Prop where
  unfinished : isFinished visit.target.policy = false
  unmarked : visit.target.ingress ∉ p.finished
  due : ∀ deadline, get p.due visit.target.ingress = some deadline → deadline ≤ now

/-- The clock can tell when a target evaluated now is due again. -/
def Fits (last now : Nat) (visit : Visit F) : Prop :=
  now + visit.target.policy.interval * NANOS ≤ last

private theorem open_iff (now : Nat) (p : Promoter) (visit : Visit F) : Open now p visit ↔
    (isFinished visit.target.policy || p.finished.contains visit.target.ingress) = false ∧
      ¬ now < (get p.due visit.target.ingress).getD now := by
  have hdue : (¬ now < (get p.due visit.target.ingress).getD now) ↔
      ∀ deadline, get p.due visit.target.ingress = some deadline → deadline ≤ now := by
    cases get p.due visit.target.ingress with
    | none => simp
    | some deadline => simp
  rw [hdue, Bool.or_eq_false_iff]
  constructor
  · rintro ⟨hunfinished, hunmarked, hdue⟩
    exact ⟨⟨hunfinished, by simpa using hunmarked⟩, hdue⟩
  · rintro ⟨⟨hunfinished, hunmarked⟩, hdue⟩
    exact ⟨hunfinished, by simpa using hunmarked, hdue⟩

/-- Where the sum is in range, or is not made, the clock makes no difference. -/
theorem passOverOn_eq_some {last now : Nat} {g : Progress F} {visit : Visit F}
    (h : Open now g.promoter visit → Fits last now visit) :
    passOverOn rates last now g visit = some (passOver rates now g visit) := by
  rw [open_iff] at h
  unfold passOverOn passOver
  simp only
  split
  · rfl
  · rename_i hgo
    split
    · rfl
    · rename_i hdue
      have hfits : Fits last now visit := h ⟨Bool.eq_false_iff.mpr hgo, hdue⟩
      have hadd : instantAdd last now (visit.target.policy.interval * NANOS) =
          some (now + visit.target.policy.interval * NANOS) := if_pos hfits
      rw [hadd]
      rfl

theorem passOverOn_eq_none {last now : Nat} {g : Progress F} {visit : Visit F}
    (hopen : Open now g.promoter visit) (hover : ¬ Fits last now visit) :
    passOverOn rates last now g visit = none := by
  obtain ⟨hgo, hdue⟩ := (open_iff now g.promoter visit).mp hopen
  unfold passOverOn
  simp only
  have hadd : instantAdd last now (visit.target.policy.interval * NANOS) = none := if_neg hover
  rw [if_neg (Bool.eq_false_iff.mp hgo), if_neg hdue, hadd]
  rfl

end Clock

section Passes

variable {F : Type} (rates : Rates F)

private theorem due_of_evaluates {p p' : Promoter} {visit : Visit F} {r : Report F}
    (h : Evaluates rates p visit p' r) : p'.due = p.due := by
  cases h with
  | unread hread => rfl
  | first reading hread hfirst => rfl
  | judged reading previous verdict patch audited finished hread hprevious hverdict hpatch hdone =>
      rfl

/-- A visit that evaluates its target leaves it due an interval later. -/
theorem due_of_open {now : Nat} {g : Progress F} {visit : Visit F}
    (h : Open now g.promoter visit) :
    (passOver rates now g visit).promoter.due =
      insert g.promoter.due visit.target.ingress (now + visit.target.policy.interval * NANOS) := by
  obtain ⟨hgo, hdue⟩ := (open_iff now g.promoter visit).mp h
  unfold passOver
  simp only
  rw [if_neg (Bool.eq_false_iff.mp hgo), if_neg hdue]
  exact due_of_evaluates rates (evaluates rates _ visit)

/-- A visit that does not leaves everything due when it was, and nothing finished. -/
theorem same_of_not_open {now : Nat} {g : Progress F} {visit : Visit F}
    (h : ¬ Open now g.promoter visit) :
    (passOver rates now g visit).promoter.finished = g.promoter.finished ∧
      ∀ key, get (passOver rates now g visit).promoter.due key = get g.promoter.due key := by
  rw [open_iff, not_and_or] at h
  unfold passOver
  simp only
  split
  · exact ⟨rfl, fun _ => rfl⟩
  · rename_i hgo
    have hlater := h.resolve_left (not_not_intro (Bool.eq_false_iff.mpr hgo))
    rw [if_pos (not_not.mp hlater)]
    refine ⟨rfl, fun key => ?_⟩
    -- A deadline that has not come is one that was set.
    cases hset : get g.promoter.due visit.target.ingress with
    | none =>
        rw [hset, Option.getD_none] at hlater
        exact absurd (lt_irrefl now) hlater
    | some deadline =>
        simp only [Option.getD_some, get_insert]
        split
        · rename_i hkey
          rw [hkey, hset]
        · rfl

private theorem next_le {now : Nat} {g : Progress F} {visit : Visit F} :
    (passOver rates now g visit).next ≤ g.next := by
  unfold passOver
  simp only
  split
  · exact le_rfl
  · split
    · exact min_le_left _ _
    · exact min_le_left _ _

/-- Once a target has been passed over it is not open to the same pass again. -/
theorem not_open_again {now : Nat} {g : Progress F} {visit again : Visit F}
    (hkey : again.target.ingress = visit.target.ingress)
    (hunfinished : isFinished visit.target.policy = false)
    (hinterval : 0 < visit.target.policy.interval) :
    ¬ Open now (passOver rates now g visit).promoter again := by
  intro hagain
  by_cases hopen : Open now g.promoter visit
  · have hlater := hagain.due _ (by rw [due_of_open rates hopen, hkey, get_insert_self])
    have hpos : 0 < visit.target.policy.interval * NANOS := Nat.mul_pos hinterval (by decide)
    omega
  · obtain ⟨hfinished, hdue⟩ := same_of_not_open rates hopen
    refine hopen ⟨hunfinished, ?_, fun deadline hset => ?_⟩
    · rw [← hkey, ← hfinished]
      exact hagain.unmarked
    · exact hagain.due deadline (by rw [hdue, hkey, hset])

theorem open_elsewhere {now : Nat} {g : Progress F} {visit other : Visit F}
    (hkey : other.target.ingress ≠ visit.target.ingress) :
    Open now (passOver rates now g visit).promoter other ↔ Open now g.promoter other := by
  have hsame := same_of_passes rates (passes rates now g visit) (Ne.symm hkey)
  constructor
  · rintro ⟨hunfinished, hunmarked, hdue⟩
    exact ⟨hunfinished, fun h => hunmarked (hsame.finished.mpr h), by rwa [hsame.due] at hdue⟩
  · rintro ⟨hunfinished, hunmarked, hdue⟩
    exact ⟨hunfinished, fun h => hunmarked (hsame.finished.mp h), by rwa [hsame.due]⟩

/-- The clock has room for every target that a pass comes to open: the first visit of its key that
is not of a finished canary. -/
def RoomFor (last now : Nat) (p : Promoter) (visits : List (Visit F)) : Prop :=
  ∀ before visit after, visits = before ++ visit :: after →
    (∀ earlier ∈ before, earlier.target.ingress = visit.target.ingress →
      isFinished earlier.target.policy = true) →
    Open now p visit → Fits last now visit

private theorem passOver_finished {now : Nat} {g : Progress F} {visit : Visit F}
    (h : isFinished visit.target.policy = true) : passOver rates now g visit = g := by
  unfold passOver
  simp only [h, Bool.true_or, if_true]

private theorem roomFor_cons {last now : Nat} {g : Progress F} {visit : Visit F}
    {visits : List (Visit F)} (hinterval : 0 < visit.target.policy.interval) :
    RoomFor last now g.promoter (visit :: visits) ↔
      (Open now g.promoter visit → Fits last now visit) ∧
        RoomFor last now (passOver rates now g visit).promoter visits := by
  constructor
  · intro h
    refine ⟨h [] visit visits rfl fun _ hin => absurd hin List.not_mem_nil, fun before later after hsplit hfirst hopen => ?_⟩
    by_cases hkey : later.target.ingress = visit.target.ingress
    · cases hfinished : isFinished visit.target.policy with
      | false => exact absurd hopen (not_open_again rates hkey hfinished hinterval)
      | true =>
          rw [passOver_finished rates hfinished] at hopen
          refine h (visit :: before) later after (by rw [hsplit, List.cons_append]) ?_ hopen
          intro earlier hearlier hsame
          rcases List.mem_cons.mp hearlier with rfl | hearlier
          · exact hfinished
          · exact hfirst earlier hearlier hsame
    · refine h (visit :: before) later after (by rw [hsplit, List.cons_append]) ?_
        ((open_elsewhere rates hkey).mp hopen)
      intro earlier hearlier hsame
      rcases List.mem_cons.mp hearlier with rfl | hearlier
      · exact absurd hsame.symm hkey
      · exact hfirst earlier hearlier hsame
  · rintro ⟨hhere, hrest⟩ before later after hsplit hfirst hopen
    cases before with
    | nil =>
        obtain ⟨rfl, rfl⟩ := List.cons.inj hsplit
        exact hhere hopen
    | cons head before =>
        obtain ⟨rfl, htail⟩ := List.cons.inj hsplit
        refine hrest before later after htail
          (fun earlier hearlier => hfirst earlier (List.mem_cons_of_mem _ hearlier)) ?_
        by_cases hkey : later.target.ingress = visit.target.ingress
        · rw [passOver_finished rates (hfirst visit List.mem_cons_self hkey.symm)]
          exact hopen
        · exact (open_elsewhere rates hkey).mpr hopen

/-- A pass over a list goes through exactly where the clock has room, and then as on a clock
without a last instant. -/
theorem foldlM_passOverOn (last now : Nat) (visits : List (Visit F)) (g : Progress F)
    (hinterval : ∀ visit ∈ visits, 0 < visit.target.policy.interval) :
    (RoomFor last now g.promoter visits → visits.foldlM (passOverOn rates last now) g =
        some (visits.foldl (passOver rates now) g)) ∧
      (¬ RoomFor last now g.promoter visits →
        visits.foldlM (passOverOn rates last now) g = none) := by
  induction visits generalizing g with
  | nil =>
      refine ⟨fun _ => rfl, fun h => absurd ?_ h⟩
      intro before visit after hsplit
      simp at hsplit
  | cons visit visits ih =>
      obtain ⟨hgoes, haborts⟩ := ih (passOver rates now g visit)
        fun later hlater => hinterval later (List.mem_cons_of_mem _ hlater)
      rw [roomFor_cons rates (hinterval visit List.mem_cons_self), List.foldlM_cons]
      constructor
      · rintro ⟨hhere, hrest⟩
        rw [passOverOn_eq_some rates hhere]
        exact hgoes hrest
      · intro h
        by_cases hhere : Open now g.promoter visit → Fits last now visit
        · rw [passOverOn_eq_some rates hhere]
          exact haborts fun hrest => h ⟨hhere, hrest⟩
        · rw [Classical.not_imp] at hhere
          rw [passOverOn_eq_none rates hhere.1 hhere.2]
          rfl

/-- The instants a promoter holds are instants of the clock. -/
def Held (last : Nat) (p : Promoter) : Prop :=
  ∀ key deadline, get p.due key = some deadline → deadline ≤ last

private theorem foldl_held (last now : Nat) (visits : List (Visit F)) (g : Progress F)
    (hinterval : ∀ visit ∈ visits, 0 < visit.target.policy.interval)
    (hroom : RoomFor last now g.promoter visits) (hheld : Held last g.promoter) :
    Held last (visits.foldl (passOver rates now) g).promoter := by
  induction visits generalizing g with
  | nil => exact hheld
  | cons visit visits ih =>
      obtain ⟨hhere, hrest⟩ :=
        (roomFor_cons rates (hinterval visit List.mem_cons_self)).mp hroom
      have hheld' : Held last (passOver rates now g visit).promoter := by
        intro key deadline hset
        by_cases hopen : Open now g.promoter visit
        · rw [due_of_open rates hopen, get_insert] at hset
          split at hset
          · cases hset
            exact hhere hopen
          · exact hheld key deadline hset
        · rw [(same_of_not_open rates hopen).2] at hset
          exact hheld key deadline hset
      exact ih (passOver rates now g visit)
        (fun later hlater => hinterval later (List.mem_cons_of_mem _ hlater)) hrest hheld'

private theorem foldl_next_le (now : Nat) (visits : List (Visit F)) (g : Progress F) :
    (visits.foldl (passOver rates now) g).next ≤ g.next := by
  induction visits generalizing g with
  | nil => exact le_rfl
  | cons visit visits ih => exact (ih (passOver rates now g visit)).trans (next_le rates)

/-- A pass that does not abort: it leaves deadlines the clock can tell, and a sleep within the
loop's own bounds. -/
def PassSafe (last : Nat) (pinned : Bool) (now : Nat) (p : Promoter) (visits : List (Visit F)) :
    Prop :=
  ∃ p' sleep reports, passOn rates last pinned now p visits = some (p', sleep, reports) ∧
    (Held last p → Held last p') ∧ MIN_TICK ≤ sleep ∧ sleep ≤ IDLE_POLL

private theorem open_forget {now : Nat} {p : Promoter} {visits : List (Visit F)} {visit : Visit F}
    (hvisit : visit ∈ visits) (reported : Bool) :
    Open now (({ p with pinnedReported := reported } : Promoter).forget (liveKeys visits)) visit ↔
      Open now p visit := by
  have hlive : (liveKeys visits).contains visit.target.ingress = true := by
    rw [List.contains_iff_mem]
    exact List.mem_map_of_mem hvisit
  constructor
  · rintro ⟨hunfinished, hunmarked, hdue⟩
    refine ⟨hunfinished, fun h => hunmarked (List.mem_filter.mpr ⟨h, hlive⟩), ?_⟩
    rwa [Promoter.forget, get_retain, if_pos hlive] at hdue
  · rintro ⟨hunfinished, hunmarked, hdue⟩
    refine ⟨hunfinished, fun h => hunmarked (List.mem_of_mem_filter h), ?_⟩
    rwa [Promoter.forget, get_retain, if_pos hlive]

private theorem roomFor_forget {last now : Nat} {p : Promoter} {visits : List (Visit F)}
    (reported : Bool) :
    RoomFor last now
        (({ p with pinnedReported := reported } : Promoter).forget (liveKeys visits)) visits ↔
      RoomFor last now p visits := by
  constructor
  · intro h before visit after hsplit hfirst hopen
    exact h before visit after hsplit hfirst
      ((open_forget (by rw [hsplit]; simp) reported).mpr hopen)
  · intro h before visit after hsplit hfirst hopen
    exact h before visit after hsplit hfirst
      ((open_forget (by rw [hsplit]; simp) reported).mp hopen)

private theorem held_forget {last : Nat} {p : Promoter} (h : Held last p) (reported : Bool)
    (live : List ObjectKey) :
    Held last (({ p with pinnedReported := reported } : Promoter).forget live) := by
  intro key deadline hset
  rw [Promoter.forget, get_retain] at hset
  split at hset
  · exact h key deadline hset
  · cases hset

/-- A pass over canaries whose policies were read from annotations is safe exactly while a pin
holds it, or the clock has room for every target it comes to open. -/
theorem pass_safe_iff (fl : Floats F) (last : Nat) (pinned : Bool) (now : Nat) (p : Promoter)
    (visits : List (Visit F))
    (hparsed : ∀ visit ∈ visits, ∃ annotations,
      visit.target.policy = PromotionAnnotations.parse fl annotations) :
    PassSafe rates last pinned now p visits ↔ pinned = true ∨ RoomFor last now p visits := by
  have hinterval : ∀ visit ∈ visits, 0 < visit.target.policy.interval := by
    intro visit hvisit
    obtain ⟨annotations, hpolicy⟩ := hparsed visit hvisit
    rw [hpolicy]
    exact interval_pos fl annotations
  cases pinned with
  | true =>
      refine ⟨fun _ => .inl rfl, fun _ => ⟨_, _, _, rfl, fun h => h, by decide, le_rfl⟩⟩
  | false =>
      obtain ⟨hgoes, haborts⟩ := foldlM_passOverOn rates last now visits
        ⟨({ p with pinnedReported := false } : Promoter).forget (liveKeys visits), IDLE_POLL, []⟩
        hinterval
      rw [roomFor_forget] at hgoes haborts
      constructor
      · rintro ⟨p', sleep, reports, hpass, -⟩
        refine .inr (by_contra fun hroom => ?_)
        simp only [passOn, Bool.false_eq_true, if_false, haborts hroom] at hpass
        cases hpass
      · rintro (hpinned | hroom)
        · cases hpinned
        · have hpass : passOn rates last false now p visits =
              some (Promotion.pass rates false now p visits) := by
            simp only [passOn, Promotion.pass, Bool.false_eq_true, if_false, hgoes hroom]
            rfl
          refine ⟨_, _, _, hpass, fun hheld => ?_, le_max_right _ _, ?_⟩
          · exact foldl_held rates last now visits _ hinterval ((roomFor_forget false).mpr hroom)
              (held_forget hheld false _)
          · exact max_le (foldl_next_le rates now visits _) (by decide)

end Passes

section Samples

/-- The last instant of a clock that counts seconds in 63 bits. -/
def LAST_INSTANT : Nat := 9223372036854775807 * NANOS + 999999999

/-- A canary opted in, with an interval of its own. -/
def pacedAnnotations (interval : Bytes) : Annotations :=
  [(ANNOTATION_AUTO_PROMOTE, ascii "true"), (ANNOTATION_AUTO_PROMOTE_INTERVAL, interval)]

def pacedVisit (name interval : Bytes) : Visit Nat :=
  { target :=
      { ingress := ⟨ascii "prod", name⟩, uid := none, routes := [], weight := 5
        policy := PromotionAnnotations.parse StepWeights.wholeFloats (pacedAnnotations interval) }
    scrape := shopScrape 0 0 0
    patched := .ok () }

/-- A pass at a five-minute interval is safe. -/
theorem pass_safe_of_minutes :
    PassSafe wholeRates LAST_INSTANT false (60 * NANOS) {} [pacedVisit (ascii "cart") (ascii "5m")] := by
  refine (pass_safe_iff wholeRates StepWeights.wholeFloats _ _ _ _ _ ?_).mpr (.inr ?_)
  · intro visit hvisit
    rw [List.mem_singleton.mp hvisit]
    exact ⟨pacedAnnotations (ascii "5m"), rfl⟩
  · intro before visit after hsplit _ _
    have hvisit : visit ∈ [pacedVisit (ascii "cart") (ascii "5m")] := by
      rw [hsplit]
      simp
    rw [List.mem_singleton.mp hvisit]
    unfold Fits
    decide +kernel

/-- One at an interval of as many seconds as 64 bits hold aborts. -/
theorem pass_aborts :
    (PromotionAnnotations.parse StepWeights.wholeFloats
        (pacedAnnotations (ascii "18446744073709551615"))).invalid = [] ∧
      ¬ PassSafe wholeRates LAST_INSTANT false (60 * NANOS) {}
        [pacedVisit (ascii "shop") (ascii "18446744073709551615"),
          pacedVisit (ascii "cart") (ascii "5m")] := by
  refine ⟨by decide +kernel, ?_⟩
  rintro ⟨p', sleep, reports, hpass, -⟩
  have hnone : (passOn wholeRates LAST_INSTANT false (60 * NANOS) {}
      [pacedVisit (ascii "shop") (ascii "18446744073709551615"),
        pacedVisit (ascii "cart") (ascii "5m")]).isNone = true := by
    decide +kernel
  rw [hpass] at hnone
  cases hnone

end Samples

end Ramjet.Ingressd.Deadlines
