/- digest: What is left of a canary that was away for some turns and comes back armed. -/

import Ramjet.Ingressd.PromoterSafety

set_option autoImplicit false
set_option relaxedAutoImplicit false

namespace Ramjet.Ingressd.Rearming

open Ramjet.Base.Octets
open Ramjet.Base.AssocMap
open Ramjet.Router.Rule
open Ramjet.Router.Table
open Ramjet.Router.Stats
open Ramjet.Controller.Objects
open Ramjet.Controller.Annotations
open Ramjet.Controller.Config
open Ramjet.Ingressd.Promotion
open Ramjet.Ingressd.PromoterSafety

variable {F : Type} (rates : Rates F)

section Other

/-- What the promoter keeps of one target. -/
structure Same (key : ObjectKey) (p p' : Promoter) : Prop where
  finished : key ∈ p'.finished ↔ key ∈ p.finished
  baseline : get p'.baselines key = get p.baselines key
  due : get p'.due key = get p.due key

theorem Same.refl (key : ObjectKey) (p : Promoter) : Same key p p := ⟨Iff.rfl, rfl, rfl⟩

theorem Same.trans {key : ObjectKey} {p q r : Promoter} (h : Same key p q) (h' : Same key q r) :
    Same key p r :=
  ⟨h'.finished.trans h.finished, h'.baseline.trans h.baseline, h'.due.trans h.due⟩

private theorem same_of_evaluates {p p' : Promoter} {visit : Visit F} {r : Report F}
    (h : Evaluates rates p visit p' r) {key : ObjectKey} (hother : visit.target.ingress ≠ key) :
    Same key p p' := by
  have hfinished : key ∈ p'.finished ↔ key ∈ p.finished := by
    rw [h.finished rates key, h.target]
    exact ⟨fun h => h.resolve_right fun hsame => hother hsame.1, .inl⟩
  cases h with
  | unread hread => exact .refl key p
  | first reading hread hfirst => exact ⟨hfinished, get_insert_of_ne _ (Ne.symm hother) _, rfl⟩
  | judged reading previous verdict patch audited finished hread hprevious hverdict hpatch hdone =>
      exact ⟨hfinished, get_insert_of_ne _ (Ne.symm hother) _, rfl⟩

/-- A pass changes nothing of a target while it is at another one. -/
theorem same_of_passes {now : Nat} {visit : Visit F} {g g' : Progress F}
    (h : Passes rates now visit g g') {key : ObjectKey} (hother : visit.target.ingress ≠ key) :
    Same key g.promoter g'.promoter := by
  have hdue : ∀ deadline, get (insert g.promoter.due visit.target.ingress deadline) key =
      get g.promoter.due key := fun deadline => get_insert_of_ne _ (Ne.symm hother) deadline
  cases h with
  | closed hclosed hsame =>
      rw [hsame]
      exact .refl key _
  | waiting deadline hwait hlater hreports hpromoter =>
      rw [hpromoter]
      exact ⟨Iff.rfl, rfl, hdue deadline⟩
  | evaluated r hopen hunmarked hevaluates hreports =>
      have hset : Same key g.promoter { g.promoter with
          due := insert g.promoter.due visit.target.ingress
            (now + visit.target.policy.interval * NANOS) } := ⟨Iff.rfl, rfl, hdue _⟩
      exact hset.trans (same_of_evaluates rates hevaluates hother)

private theorem same_foldl (now : Nat) (visits : List (Visit F)) (g : Progress F)
    {key : ObjectKey} (habsent : key ∉ liveKeys visits) :
    Same key g.promoter (visits.foldl (passOver rates now) g).promoter := by
  induction visits generalizing g with
  | nil => exact .refl key _
  | cons visit visits ih =>
      rw [liveKeys, List.map_cons, List.mem_cons, not_or] at habsent
      have hstep := same_of_passes rates (passes rates now g visit) (Ne.symm habsent.1)
      exact hstep.trans (ih _ habsent.2)

end Other

section Absence

/-- A turn with a list to pass over and no pin to hold it. -/
def Sweeps (t : Turn F) : Prop := t.visits ≠ [] ∧ t.pinned = false

/-- Nothing of a target is kept. -/
def Forgotten (key : ObjectKey) (p : Promoter) : Prop :=
  key ∉ p.finished ∧ get p.baselines key = none ∧ get p.due key = none

private theorem turn_of_absent (p : Promoter) (t : Turn F) {key : ObjectKey}
    (habsent : key ∉ liveKeys t.visits) :
    (Sweeps t → Forgotten key (turn rates p t).1) ∧
      (¬ Sweeps t → Same key p (turn rates p t).1) := by
  constructor
  · rintro ⟨hlisted, hpinned⟩
    rw [turn_passes rates p hlisted hpinned]
    have hsame := same_foldl rates t.now t.visits
      ⟨({ p with pinnedReported := false } : Promoter).forget (liveKeys t.visits), IDLE_POLL, []⟩
      habsent
    refine ⟨fun h => ?_, ?_, ?_⟩
    · have hkept := (List.mem_filter.mp (hsame.finished.mp h)).2
      exact habsent (by simpa using hkept)
    · rw [hsame.baseline, Promoter.forget, get_retain, if_neg (by simpa using habsent)]
    · rw [hsame.due, Promoter.forget, get_retain, if_neg (by simpa using habsent)]
  · intro hidle
    rcases idle_or_passes t with hquiet | hsweeps
    · obtain ⟨-, hbaselines, hdue, hfinished⟩ := turn_idle rates p hquiet
      exact ⟨by rw [hfinished], by rw [hbaselines], by rw [hdue]⟩
    · exact absurd hsweeps hidle

private theorem Forgotten.turn {key : ObjectKey} {p : Promoter} (h : Forgotten key p) (t : Turn F)
    (habsent : key ∉ liveKeys t.visits) : Forgotten key (turn rates p t).1 := by
  obtain ⟨hswept, hidle⟩ := turn_of_absent rates p t habsent
  by_cases hsweeps : Sweeps t
  · exact hswept hsweeps
  · have hsame := hidle hsweeps
    exact ⟨fun hkey => h.1 (hsame.finished.mp hkey), hsame.baseline.trans h.2.1,
      hsame.due.trans h.2.2⟩

/-- While a target is away it is forgotten in the first turn that sweeps, and not before. -/
theorem absence (p : Promoter) (away : List (Turn F)) {key : ObjectKey}
    (habsent : ∀ t ∈ away, key ∉ liveKeys t.visits) :
    ((∃ t ∈ away, Sweeps t) → Forgotten key (runTurns rates p away)) ∧
      ((¬ ∃ t ∈ away, Sweeps t) → Same key p (runTurns rates p away)) := by
  induction away generalizing p with
  | nil => exact ⟨fun ⟨_, h, _⟩ => (by cases h), fun _ => .refl key p⟩
  | cons t away ih =>
      obtain ⟨hswept, hidle⟩ := turn_of_absent rates p t (habsent t List.mem_cons_self)
      have hrest : ∀ t' ∈ away, key ∉ liveKeys t'.visits :=
        fun t' ht' => habsent t' (List.mem_cons_of_mem _ ht')
      obtain ⟨hlater, hstill⟩ := ih (turn rates p t).1 hrest
      constructor
      · rintro ⟨t', ht', hsweeps⟩
        by_cases hagain : ∃ t ∈ away, Sweeps t
        · exact hlater hagain
        · rcases List.mem_cons.mp ht' with rfl | ht'
          · have hsame := hstill hagain
            obtain ⟨hunmarked, hunread, hundue⟩ := hswept hsweeps
            exact ⟨fun hkey => hunmarked (hsame.finished.mp hkey), hsame.baseline.trans hunread,
              hsame.due.trans hundue⟩
          · exact absurd ⟨t', ht', hsweeps⟩ hagain
      · intro hnone
        have hnow : ¬ Sweeps t := fun h => hnone ⟨t, List.mem_cons_self, h⟩
        have hnever : ¬ ∃ t ∈ away, Sweeps t := by
          rintro ⟨t', ht', hsweeps⟩
          exact hnone ⟨t', List.mem_cons_of_mem _ ht', hsweeps⟩
        exact (hidle hnow).trans (hstill hnever)

end Absence

section Return

/-- A target that comes back is neither marked finished nor held to an old reading, and the pass
that takes it up, once its deadline has come, starts it from a reading of its own. -/
structure Rearmed (p : Promoter) (t : Turn F) (key : ObjectKey) : Prop where
  unmarked : key ∉ p.finished
  unread : get p.baselines key = none
  evaluated : t.pinned = false → (∀ deadline, get p.due key = some deadline → deadline ≤ t.now) →
    ∃ r ∈ (turn rates p t).2, r.target.ingress = key ∧ r.previous = none ∧ r.patch = none ∧
      ∃ visit ∈ t.visits, r.target = visit.target ∧
        r.reading = Promotion.read visit.scrape visit.target.routes

private theorem reports_grow (now : Nat) (visits : List (Visit F)) (g : Progress F) {r : Report F}
    (hr : r ∈ g.reports) : r ∈ (visits.foldl (passOver rates now) g).reports := by
  induction visits generalizing g with
  | nil => exact hr
  | cons visit visits ih =>
      refine ih _ ?_
      have hstep := passes rates now g visit
      generalize passOver rates now g visit = g' at hstep ⊢
      cases hstep with
      | closed hclosed hsame =>
          rw [hsame]
          exact hr
      | waiting deadline hdue hlater hreports hpromoter =>
          rw [hreports]
          exact hr
      | evaluated r' hopen hunmarked hevaluates hreports =>
          rw [hreports]
          exact List.mem_append_left _ hr

private theorem fresh_of_evaluates {p p' : Promoter} {visit : Visit F} {r : Report F}
    (h : Evaluates rates p visit p' r) (hunread : get p.baselines visit.target.ingress = none) :
    r.previous = none ∧ r.patch = none := by
  cases h with
  | unread hread => exact ⟨rfl, rfl⟩
  | first reading hread hfirst => exact ⟨rfl, rfl⟩
  | judged reading previous verdict patch audited finished hread hprevious hverdict hpatch hdone =>
      rw [hunread] at hprevious
      cases hprevious

/-- A pass takes up an armed target that it holds nothing of. -/
private theorem taken_up (now : Nat) (visits : List (Visit F)) (g : Progress F) {key : ObjectKey}
    (hunmarked : key ∉ g.promoter.finished) (hunread : get g.promoter.baselines key = none)
    (hdue : ∀ deadline, get g.promoter.due key = some deadline → deadline ≤ now)
    (hback : ∃ visit ∈ visits, visit.target.ingress = key ∧
      isFinished visit.target.policy = false) :
    ∃ r ∈ (visits.foldl (passOver rates now) g).reports, r.target.ingress = key ∧
      r.previous = none ∧ r.patch = none ∧ ∃ visit ∈ visits, r.target = visit.target ∧
        r.reading = Promotion.read visit.scrape visit.target.routes := by
  induction visits generalizing g with
  | nil =>
      obtain ⟨visit, hvisit, -⟩ := hback
      cases hvisit
  | cons visit visits ih =>
      have hstep := passes rates now g visit
      rw [List.foldl_cons]
      generalize passOver rates now g visit = g' at hstep ⊢
      by_cases hkey : visit.target.ingress = key
      · cases hopen : isFinished visit.target.policy with
        | true =>
            cases hstep with
            | closed hclosed hsame =>
                rw [hsame]
                have hrest : ∃ visit ∈ visits, visit.target.ingress = key ∧
                    isFinished visit.target.policy = false := by
                  obtain ⟨other, hother, hsameKey, hotherOpen⟩ := hback
                  rcases List.mem_cons.mp hother with rfl | hother
                  · rw [hopen] at hotherOpen
                    cases hotherOpen
                  · exact ⟨other, hother, hsameKey, hotherOpen⟩
                obtain ⟨r, hr, hr', hprevious, hpatch, v, hv, hread⟩ :=
                  ih g hunmarked hunread hdue hrest
                exact ⟨r, hr, hr', hprevious, hpatch, v, List.mem_cons_of_mem _ hv, hread⟩
            | waiting deadline hwait hlater hreports hpromoter =>
                rw [hkey] at hwait
                exact absurd (hdue deadline hwait) (Nat.not_le.mpr hlater)
            | evaluated r hopen' hunmarked' hevaluates hreports =>
                rw [hopen] at hopen'
                cases hopen'
        | false =>
            cases hstep with
            | closed hclosed hsame =>
                rw [hopen, hkey] at hclosed
                rcases hclosed with hclosed | hclosed
                · cases hclosed
                · exact absurd hclosed hunmarked
            | waiting deadline hwait hlater hreports hpromoter =>
                rw [hkey] at hwait
                exact absurd (hdue deadline hwait) (Nat.not_le.mpr hlater)
            | evaluated r hopen' hunmarked' hevaluates hreports =>
                obtain ⟨hprevious, hpatch⟩ :=
                  fresh_of_evaluates rates hevaluates (by rw [hkey]; exact hunread)
                refine ⟨r, reports_grow rates now visits g' ?_, by rw [hevaluates.target, hkey],
                  hprevious, hpatch, visit, List.mem_cons_self, hevaluates.target,
                  hevaluates.reading⟩
                rw [hreports]
                exact List.mem_append_right _ (List.mem_singleton_self r)
      · have hsame := same_of_passes rates hstep hkey
        have hrest : ∃ visit ∈ visits, visit.target.ingress = key ∧
            isFinished visit.target.policy = false := by
          obtain ⟨other, hother, hsameKey, hotherOpen⟩ := hback
          rcases List.mem_cons.mp hother with rfl | hother
          · exact absurd hsameKey hkey
          · exact ⟨other, hother, hsameKey, hotherOpen⟩
        obtain ⟨r, hr, hr', hprevious, hpatch, v, hv, hread⟩ :=
          ih g' (fun h => hunmarked (hsame.finished.mp h)) (hsame.baseline.trans hunread)
            (fun deadline h => hdue deadline (hsame.due.symm.trans h)) hrest
        exact ⟨r, hr, hr', hprevious, hpatch, v, List.mem_cons_of_mem _ hv, hread⟩

/-- A target that comes back armed after being away starts afresh exactly when one of the turns it
was away for swept, or nothing of it was left when it went. -/
theorem rearmed_iff (before away : List (Turn F)) (t : Turn F) (key : ObjectKey)
    (habsent : ∀ a ∈ away, key ∉ liveKeys a.visits)
    (hback : ∃ visit ∈ t.visits, visit.target.ingress = key ∧
      isFinished visit.target.policy = false) :
    Rearmed rates (runTurns rates {} (before ++ away)) t key ↔
      (∃ a ∈ away, Sweeps a) ∨ (key ∉ (runTurns rates {} before).finished ∧
        get (runTurns rates {} before).baselines key = none) := by
  obtain ⟨hswept, hkept⟩ := absence rates (runTurns rates {} before) away habsent
  rw [runTurns_append]
  constructor
  · rintro ⟨hunmarked, hunread, -⟩
    by_cases hsweeps : ∃ a ∈ away, Sweeps a
    · exact .inl hsweeps
    · have hsame := hkept hsweeps
      exact .inr ⟨fun h => hunmarked (hsame.finished.mpr h), hsame.baseline.symm.trans hunread⟩
  · intro h
    have hfresh : key ∉ (runTurns rates (runTurns rates {} before) away).finished ∧
        get (runTurns rates (runTurns rates {} before) away).baselines key = none := by
      by_cases hsweeps : ∃ a ∈ away, Sweeps a
      · obtain ⟨hunmarked, hunread, -⟩ := hswept hsweeps
        exact ⟨hunmarked, hunread⟩
      · have hsame := hkept hsweeps
        obtain ⟨hunmarked, hunread⟩ := h.resolve_left hsweeps
        exact ⟨fun h => hunmarked (hsame.finished.mp h), hsame.baseline.trans hunread⟩
    refine ⟨hfresh.1, hfresh.2, fun hpinned hdue => ?_⟩
    have hlisted : t.visits ≠ [] := by
      obtain ⟨visit, hvisit, -⟩ := hback
      exact List.ne_nil_of_mem hvisit
    rw [turn_passes rates _ hlisted hpinned]
    refine taken_up rates t.now t.visits _ ?_ ?_ ?_ hback
    · exact fun h => hfresh.1 (List.mem_of_mem_filter h)
    · simp only [Promoter.forget, get_retain, hfresh.2, ite_self]
    · intro deadline h
      simp only [Promoter.forget, get_retain] at h
      split at h
      · exact hdue deadline h
      · cases h

end Return

section Samples

/-- Counting in whole numbers. -/
def wholeRates : Rates Nat :=
  { ofCount := id, zero := 0, hundred := 100, thousand := 1000
    mul := fun a b => a * b, div := fun a b => a / b, lt := fun a b => a < b
    fixed1 := decimal, fixed2 := decimal }

/-- One route of `shop` that a canary shadows, after so many requests on either side. -/
def shopScrape (requests canary errors : Nat) : Scrape :=
  { table := { hosts :=
      [(ascii "shop", ⟨[PathRule.new (ascii "/") .prefixed none 0 none]⟩)] }
    slots := [⟨[⟨requests, errors, 0, 0⟩, {}, {}, {}], [⟨canary, errors, 0, 0⟩, {}, {}, {}]⟩] }

def shopKey : ObjectKey := ⟨ascii "prod", ascii "canary"⟩

/-- The canary of `shop`, armed. -/
def shopTarget (key : ObjectKey) : PromotionTarget Nat :=
  { ingress := key
    uid := none
    routes := [⟨ascii "shop", ascii "/", .prefixed⟩]
    weight := 25
    policy := ⟨true, 60, [50, 100], 1, 2, 50, none, []⟩ }

def shopTurn (keys : List ObjectKey) (minute : Nat) (scrape : Scrape) : Turn Nat :=
  ⟨keys.map fun key => ⟨shopTarget key, scrape, .ok ()⟩, false, minute * 60 * NANOS⟩

/-- A baseline, and then a window in which a fifth of the canary's requests fail. -/
def breached : List (Turn Nat) :=
  [shopTurn [shopKey] 0 (shopScrape 0 0 0), shopTurn [shopKey] 1 (shopScrape 400 200 40)]

/-- A rolled-back canary that was away from a list of others is taken up afresh. -/
theorem rearmed_beside_others :
    Rearmed wholeRates
      (runTurns wholeRates {} (breached ++
        [shopTurn [⟨ascii "prod", ascii "other"⟩] 2 (shopScrape 800 400 40)]))
      (shopTurn [shopKey] 3 (shopScrape 1200 600 40)) shopKey := by
  refine (rearmed_iff wholeRates breached _ _ shopKey ?_ ?_).mpr (.inl ⟨_, List.mem_cons_self, ?_⟩)
  · intro a ha
    rw [List.mem_singleton.mp ha]
    decide
  · exact ⟨_, List.mem_cons_self, rfl, rfl⟩
  · exact ⟨List.cons_ne_nil _ _, rfl⟩

/-- A rolled-back canary that was the only one opted in is never taken up again. -/
theorem not_rearmed_alone :
    ¬ ∀ (before away : List (Turn Nat)) (t : Turn Nat) (key : ObjectKey), away ≠ [] →
      key ∈ (runTurns wholeRates {} before).finished →
      (∀ a ∈ away, key ∉ liveKeys a.visits) →
      (∃ visit ∈ t.visits, visit.target.ingress = key ∧ visit.target.policy.enabled = true ∧
        visit.target.policy.status = none) →
      Rearmed wholeRates (runTurns wholeRates {} (before ++ away)) t key := by
  intro h
  have hrearmed := h breached [shopTurn [] 2 (shopScrape 400 200 40)]
    (shopTurn [shopKey] 3 (shopScrape 800 400 40)) shopKey (by simp) (by decide +kernel)
    (by
      intro a ha
      rw [List.mem_singleton.mp ha]
      exact List.not_mem_nil)
    ⟨_, List.mem_cons_self, rfl, rfl, rfl⟩
  exact hrearmed.unmarked (by decide +kernel)

end Samples

end Ramjet.Ingressd.Rearming
