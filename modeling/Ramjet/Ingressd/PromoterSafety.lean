/- digest: What a promotion loop may do to a cluster, along every run of passes. -/

import Ramjet.Ingressd.Promotion

set_option autoImplicit false
set_option relaxedAutoImplicit false

namespace Ramjet.Ingressd.PromoterSafety

open Ramjet.Base.Octets
open Ramjet.Base.AssocMap
open Ramjet.Router.Stats
open Ramjet.Controller.Objects
open Ramjet.Controller.Annotations
open Ramjet.Controller.Config
open Ramjet.Ingressd.Promotion

variable {F : Type} (rates : Rates F)

section Deciding

/-- Enough traffic on both sides, and one of the gates open. -/
def Breached (policy : PromotionAnnotations F) (window : Window) : Prop :=
  policy.minRequests ≤ window.canary.requests ∧ policy.minRequests ≤ window.stable.requests ∧
    ((∃ percent, errorPercent rates window.canary = some percent ∧
        rates.lt policy.max5xxPercent percent = true) ∨
      ∃ canary stable, avgLatencyMs rates window.canary = some canary ∧
        avgLatencyMs rates window.stable = some stable ∧
        rates.lt (rates.mul stable policy.maxLatencyFactor) canary = true)

theorem errorBreach_isSome (policy : PromotionAnnotations F) (window : Window) :
    (errorBreach rates policy window).isSome = true ↔
      ∃ percent, errorPercent rates window.canary = some percent ∧
        rates.lt policy.max5xxPercent percent = true := by
  unfold errorBreach
  cases errorPercent rates window.canary with
  | none => simp
  | some percent =>
      cases hover : rates.lt policy.max5xxPercent percent <;> simp [hover]

theorem latencyBreach_isSome (policy : PromotionAnnotations F) (window : Window) :
    (latencyBreach rates policy window).isSome = true ↔
      ∃ canary stable, avgLatencyMs rates window.canary = some canary ∧
        avgLatencyMs rates window.stable = some stable ∧
        rates.lt (rates.mul stable policy.maxLatencyFactor) canary = true := by
  unfold latencyBreach
  cases avgLatencyMs rates window.canary with
  | none => simp
  | some canary =>
      cases avgLatencyMs rates window.stable with
      | none => simp
      | some stable =>
          cases hover : rates.lt (rates.mul stable policy.maxLatencyFactor) canary <;>
            simp [hover]

/-- A breach is a rollback. -/
theorem decide_of_breached {policy : PromotionAnnotations F} {window : Window}
    (h : Breached rates policy window) (weight : Nat) :
    ∃ reason, Promotion.decide rates policy weight window = .rollBack reason := by
  obtain ⟨hcanary, hstable, hgate⟩ := h
  have henough : ¬ (window.canary.requests < policy.minRequests ∨
      window.stable.requests < policy.minRequests) := by omega
  unfold Promotion.decide
  rw [if_neg henough]
  cases herror : errorBreach rates policy window with
  | some reason => exact ⟨reason, rfl⟩
  | none =>
      rcases hgate with hgate | hgate
      · have hsome := (errorBreach_isSome rates policy window).mpr hgate
        rw [herror] at hsome
        cases hsome
      · have hsome := (latencyBreach_isSome rates policy window).mpr hgate
        cases hlatency : latencyBreach rates policy window with
        | some reason => exact ⟨reason, rfl⟩
        | none =>
            rw [hlatency] at hsome
            cases hsome

/-- A step goes to a configured weight above the one being served. -/
theorem step_above {policy : PromotionAnnotations F} {window : Window} {weight toWeight : Nat}
    (h : Promotion.decide rates policy weight window = .step toWeight) :
    toWeight ∈ policy.steps ∧ weight < toWeight := by
  unfold Promotion.decide at h
  split at h
  · cases h
  split at h
  · cases h
  split at h
  · cases h
  split at h
  · rename_i found hfound
    cases h
    exact ⟨List.mem_of_find?_eq_some hfound, by simpa using List.find?_some hfound⟩
  · cases h

end Deciding

section Evaluations

/-- The last reading of a target's counters, as the reports tell it. -/
def lastReading (log : List (Report F)) (key : ObjectKey) : Option Baseline :=
  (log.filterMap fun r => if r.target.ingress = key then r.reading else none).getLast?

/-- A patch that ends a canary's promotion, and stuck. -/
def Carried (r : Report F) : Prop :=
  ∃ verdict patch, r.verdict = some verdict ∧ verdict.terminal = true ∧ r.patch = some patch ∧
    patch.outcome = .ok ()

/-- What a report says of the decision it records, given all that was reported before. -/
structure Sound (earlier : List (Report F)) (r : Report F) : Prop where
  unfinished : isFinished r.target.policy = false
  firstSighting : lastReading earlier r.target.ingress = none → r.patch = none
  decided : ∀ verdict, r.verdict = some verdict → ∃ reading previous,
    r.reading = some reading ∧ lastReading earlier r.target.ingress = some previous ∧
      verdict = Promotion.decide rates r.target.policy r.target.weight (windowOf reading previous)
  ordered : ∀ patch, r.patch = some patch → ∃ verdict order, r.verdict = some verdict ∧
    orderOf r.target.weight verdict = some order ∧ patch.ingress = r.target.ingress ∧
      patch.annotations = order.annotations
  stepped : ∀ toWeight, r.verdict = some (.step toWeight) → toWeight ∈ r.target.policy.steps ∧
    r.target.weight < toWeight ∧ ∃ patch, r.patch = some patch ∧
      patch.annotations = [(ANNOTATION_CANARY_WEIGHT, decimal toWeight)]
  rolledBack : ∀ reading previous, r.reading = some reading → r.previous = some previous →
    Breached rates r.target.policy (windowOf reading previous) → ∃ reason patch,
      r.patch = some patch ∧ patch.ingress = r.target.ingress ∧
        patch.annotations = [(ANNOTATION_CANARY_WEIGHT, ascii "0"),
          (ANNOTATION_AUTO_PROMOTE, ascii "false"),
          (ANNOTATION_AUTO_PROMOTE_STATUS, STATUS_ROLLED_BACK ++ ascii ": " ++ reason)]

/-- What one evaluation does to the promoter and reports. -/
inductive Evaluates (p : Promoter) (visit : Visit F) : Promoter → Report F → Prop
  | unread (hread : Promotion.read visit.scrape visit.target.routes = none) :
      Evaluates p visit p { target := visit.target, reading := none }
  | first (reading : Baseline) (hread : Promotion.read visit.scrape visit.target.routes = some reading)
      (hfirst : get p.baselines visit.target.ingress = none) :
      Evaluates p visit { p with baselines := insert p.baselines visit.target.ingress reading }
        { target := visit.target, reading := some reading }
  | judged (reading previous : Baseline) (verdict : Verdict) (patch : Option Patch)
      (audited : Option (CanaryDecision F)) (finished : List ObjectKey)
      (hread : Promotion.read visit.scrape visit.target.routes = some reading)
      (hprevious : get p.baselines visit.target.ingress = some previous)
      (hverdict : verdict =
        Promotion.decide rates visit.target.policy visit.target.weight (windowOf reading previous))
      (hpatch : patch = (orderOf visit.target.weight verdict).map fun order =>
        ⟨visit.target.ingress, order.annotations, visit.patched⟩)
      (hfinished : finished = if verdict.terminal = true ∧ visit.patched = .ok () then
        visit.target.ingress :: p.finished else p.finished) :
      Evaluates p visit
        { p with
          baselines := insert p.baselines visit.target.ingress reading, finished := finished }
        ⟨visit.target, some reading, some previous, some verdict, patch, audited⟩

private theorem apply_promoter (p : Promoter) (visit : Visit F) (window : Window)
    (verdict : Verdict) : (apply rates p visit window verdict).1 =
      { p with
        finished := if verdict.terminal = true ∧ visit.patched = .ok () then
          visit.target.ingress :: p.finished else p.finished } := by
  unfold apply
  cases verdict with
  | hold canary stable => rfl
  | step toWeight =>
      cases visit.patched with
      | error e => rfl
      | ok u => rfl
  | promote =>
      cases visit.patched with
      | error e => rfl
      | ok u => rfl
  | rollBack reason =>
      cases visit.patched with
      | error e => rfl
      | ok u => rfl

private theorem apply_patch (p : Promoter) (visit : Visit F) (window : Window)
    (verdict : Verdict) : (apply rates p visit window verdict).2.1 =
      (orderOf visit.target.weight verdict).map fun order =>
        ⟨visit.target.ingress, order.annotations, visit.patched⟩ := by
  unfold apply
  cases verdict with
  | hold canary stable => rfl
  | step toWeight =>
      cases visit.patched with
      | error e => rfl
      | ok u => rfl
  | promote =>
      cases visit.patched with
      | error e => rfl
      | ok u => rfl
  | rollBack reason =>
      cases visit.patched with
      | error e => rfl
      | ok u => rfl

theorem evaluates (p : Promoter) (visit : Visit F) :
    Evaluates rates p visit (evaluate rates p visit).1 (evaluate rates p visit).2 := by
  cases hread : Promotion.read visit.scrape visit.target.routes with
  | none =>
      have hevaluate : evaluate rates p visit = (p, { target := visit.target, reading := none }) := by
        simp only [evaluate, hread]
      rw [hevaluate]
      exact .unread hread
  | some reading =>
      cases hprevious : get p.baselines visit.target.ingress with
      | none =>
          have hevaluate : evaluate rates p visit =
              ({ p with baselines := insert p.baselines visit.target.ingress reading },
                { target := visit.target, reading := some reading }) := by
            simp only [evaluate, hread, hprevious]
          rw [hevaluate]
          exact .first reading hread hprevious
      | some previous =>
          have hpromoter := apply_promoter rates
            { p with baselines := insert p.baselines visit.target.ingress reading } visit
            (windowOf reading previous)
            (Promotion.decide rates visit.target.policy visit.target.weight
              (windowOf reading previous))
          simp only [evaluate, hread, hprevious]
          rw [hpromoter]
          exact .judged reading previous _ _ _ _ hread hprevious rfl (apply_patch rates _ _ _ _) rfl

/-- The promoter remembers of every target at most its last reading. -/
def Remembers (p : Promoter) (log : List (Report F)) : Prop :=
  ∀ key b, get p.baselines key = some b → lastReading log key = some b

theorem lastReading_concat (log : List (Report F)) (r : Report F) (key : ObjectKey) :
    lastReading (log ++ [r]) key =
      (if r.target.ingress = key then r.reading else none).or (lastReading log key) := by
  unfold lastReading
  rw [List.filterMap_append]
  by_cases hkey : r.target.ingress = key
  · rw [if_pos hkey]
    cases hreading : r.reading with
    | none => simp [hkey, hreading]
    | some reading => simp [hkey, hreading]
  · rw [if_neg hkey]
    simp [hkey]

private theorem get_some_of_insert {p : Promoter} {log : List (Report F)} {key : ObjectKey}
    {reading : Baseline} {r : Report F} (hkept : Remembers p log) (hkey : r.target.ingress = key)
    (hreading : r.reading = some reading) (k : ObjectKey) (b : Baseline)
    (h : get (insert p.baselines key reading) k = some b) :
    lastReading (log ++ [r]) k = some b := by
  rw [lastReading_concat, hkey]
  by_cases hk : key = k
  · subst hk
    rw [get_insert_self] at h
    rw [if_pos rfl, hreading, Option.some_or]
    exact h
  · rw [get_insert_of_ne _ (Ne.symm hk)] at h
    rw [if_neg hk, Option.none_or]
    exact hkept k b h

/-- One evaluation keeps the memory true, and reports a sound decision. -/
theorem Evaluates.sound {p p' : Promoter} {visit : Visit F} {r : Report F} {log : List (Report F)}
    (h : Evaluates rates p visit p' r) (hkept : Remembers p log)
    (hopen : isFinished visit.target.policy = false) :
    Remembers p' (log ++ [r]) ∧ Sound rates log r := by
  cases h with
  | unread hread =>
      refine ⟨fun key b hb => ?_, hopen, fun _ => rfl, ?_, ?_, ?_, ?_⟩
      · rw [lastReading_concat]
        simpa using hkept key b hb
      · exact fun _ h => nomatch h
      · exact fun _ h => nomatch h
      · exact fun _ h => nomatch h
      · exact fun _ _ h => nomatch h
  | first reading hread hfirst =>
      refine ⟨get_some_of_insert hkept rfl rfl, hopen, fun _ => rfl, ?_, ?_, ?_, ?_⟩
      · exact fun _ h => nomatch h
      · exact fun _ h => nomatch h
      · exact fun _ h => nomatch h
      · exact fun _ _ _ h => nomatch h
  | judged reading previous verdict patch audited finished hread hprevious hverdict hpatch
      hfinished =>
      have hlast := hkept _ _ hprevious
      refine ⟨get_some_of_insert hkept rfl rfl, hopen, fun hnone => ?_, fun v hv => ?_,
        fun sent hsent => ?_, fun toWeight hv => ?_, fun now before hnow hbefore hbreach => ?_⟩
      · rw [hlast] at hnone
        cases hnone
      · cases hv
        exact ⟨reading, previous, rfl, hlast, hverdict⟩
      · simp only [hpatch] at hsent
        obtain ⟨order, horder, rfl⟩ := Option.map_eq_some_iff.mp hsent
        exact ⟨verdict, order, rfl, horder, rfl, rfl⟩
      · obtain rfl : verdict = .step toWeight := Option.some.inj hv
        obtain ⟨hmem, habove⟩ := step_above rates hverdict.symm
        exact ⟨hmem, habove, _, hpatch, rfl⟩
      · cases hnow
        cases hbefore
        obtain ⟨reason, hreason⟩ := decide_of_breached rates hbreach visit.target.weight
        obtain rfl : verdict = .rollBack reason := hverdict.trans hreason
        exact ⟨reason, _, hpatch, rfl, rfl⟩

/-- An evaluation marks its own target finished, and only when its patch was carried out. -/
theorem Evaluates.finished {p p' : Promoter} {visit : Visit F} {r : Report F}
    (h : Evaluates rates p visit p' r) (key : ObjectKey) :
    key ∈ p'.finished ↔ key ∈ p.finished ∨ (r.target.ingress = key ∧ Carried r) := by
  cases h with
  | unread hread =>
      refine ⟨.inl, ?_⟩
      rintro (h | ⟨-, verdict, patch, hverdict, -⟩)
      · exact h
      · cases hverdict
  | first reading hread hfirst =>
      refine ⟨.inl, ?_⟩
      rintro (h | ⟨-, verdict, patch, hverdict, -⟩)
      · exact h
      · cases hverdict
  | judged reading previous verdict patch audited finished hread hprevious hverdict hpatch
      hfinished =>
      have hcarried : Carried (⟨visit.target, some reading, some previous, some verdict, patch,
          audited⟩ : Report F) ↔ verdict.terminal = true ∧ visit.patched = .ok () := by
        constructor
        · rintro ⟨v, sent, hv, hterminal, hsent, hok⟩
          cases hv
          simp only [hpatch] at hsent
          obtain ⟨order, -, rfl⟩ := Option.map_eq_some_iff.mp hsent
          exact ⟨hterminal, hok⟩
        · rintro ⟨hterminal, hok⟩
          cases hv : verdict with
          | hold canary stable =>
              rw [hv] at hterminal
              cases hterminal
          | step toWeight =>
              rw [hv] at hterminal
              cases hterminal
          | promote => exact ⟨.promote, _, rfl, rfl, by rw [hpatch, hv]; rfl, hok⟩
          | rollBack reason =>
              exact ⟨.rollBack reason, _, rfl, rfl, by rw [hpatch, hv]; rfl, hok⟩
      rw [hcarried]
      simp only [hfinished]
      split
      · rename_i hdone
        rw [List.mem_cons]
        constructor
        · rintro (rfl | h)
          · exact .inr ⟨rfl, hdone⟩
          · exact .inl h
        · rintro (h | ⟨rfl, -⟩)
          · exact .inr h
          · exact .inl rfl
      · rename_i hopen
        exact ⟨.inl, fun h => h.resolve_right fun hdone => hopen hdone.2⟩

theorem Evaluates.target {p p' : Promoter} {visit : Visit F} {r : Report F}
    (h : Evaluates rates p visit p' r) : r.target = visit.target := by
  cases h with
  | unread hread => rfl
  | first reading hread hfirst => rfl
  | judged reading previous verdict patch audited finished hread hprevious hverdict hpatch
      hfinished => rfl

theorem Evaluates.reading {p p' : Promoter} {visit : Visit F} {r : Report F}
    (h : Evaluates rates p visit p' r) :
    r.reading = Promotion.read visit.scrape visit.target.routes := by
  cases h with
  | unread hread => exact hread.symm
  | first reading hread hfirst => exact hread.symm
  | judged reading previous verdict patch audited finished hread hprevious hverdict hpatch
      hfinished => exact hread.symm

end Evaluations

section Passes

/-- What one target of a pass changes. -/
inductive Passes (now : Nat) (visit : Visit F) (g g' : Progress F) : Prop
  | closed (hclosed : isFinished visit.target.policy = true ∨
        visit.target.ingress ∈ g.promoter.finished) (hsame : g' = g)
  | waiting (deadline : Nat) (hdue : get g.promoter.due visit.target.ingress = some deadline)
      (hlater : now < deadline) (hreports : g'.reports = g.reports)
      (hpromoter : g'.promoter = { g.promoter with
        due := insert g.promoter.due visit.target.ingress deadline })
  | evaluated (r : Report F) (hopen : isFinished visit.target.policy = false)
      (hunmarked : visit.target.ingress ∉ g.promoter.finished)
      (hevaluates : Evaluates rates
        { g.promoter with
          due := insert g.promoter.due visit.target.ingress
            (now + visit.target.policy.interval * NANOS) }
        visit g'.promoter r)
      (hreports : g'.reports = g.reports ++ [r])

theorem passes (now : Nat) (g : Progress F) (visit : Visit F) :
    Passes rates now visit g (passOver rates now g visit) := by
  unfold passOver
  simp only
  split
  · rename_i hclosed
    rw [Bool.or_eq_true, List.contains_iff_mem] at hclosed
    exact .closed hclosed rfl
  · rename_i hgo
    rw [Bool.or_eq_true, not_or, Bool.not_eq_true, List.contains_iff_mem] at hgo
    cases hdue : get g.promoter.due visit.target.ingress with
    | none =>
        rw [Option.getD_none, if_neg (Nat.lt_irrefl now)]
        exact .evaluated _ hgo.1 hgo.2 (evaluates rates _ visit) rfl
    | some deadline =>
        rw [Option.getD_some]
        split
        · rename_i hlater
          exact .waiting deadline hdue hlater rfl rfl
        · exact .evaluated _ hgo.1 hgo.2 (evaluates rates _ visit) rfl

/-- Every report of a list is sound, given what came before the list and within it. -/
def SoundFrom (log reports : List (Report F)) : Prop :=
  ∀ before r after, reports = before ++ r :: after → Sound rates (log ++ before) r

private theorem SoundFrom.concat {log reports : List (Report F)} {r : Report F}
    (h : SoundFrom rates log reports) (hr : Sound rates (log ++ reports) r) :
    SoundFrom rates log (reports ++ [r]) := by
  intro before r' after hsplit
  rcases List.eq_nil_or_concat after with rfl | ⟨after, last, rfl⟩
  · obtain ⟨rfl, hlast⟩ := List.append_inj' hsplit rfl
    cases hlast
    exact hr
  · rw [List.concat_eq_append] at hsplit
    have hshift : reports ++ [r] = (before ++ r' :: after) ++ [last] := by simpa using hsplit
    obtain ⟨rfl, -⟩ := List.append_inj' hshift rfl
    exact h before r' after rfl

private theorem SoundFrom.append {log reports more : List (Report F)}
    (h : SoundFrom rates log reports) (hmore : SoundFrom rates (log ++ reports) more) :
    SoundFrom rates log (reports ++ more) := by
  intro before r after hsplit
  rcases List.append_eq_append_iff.mp hsplit with ⟨mid, rfl, hrest⟩ | ⟨mid, hsame, hrest⟩
  · rw [← List.append_assoc]
    exact hmore mid r after hrest
  · cases mid with
    | nil =>
        rw [List.append_nil] at hsame
        subst hsame
        have := hmore [] r after hrest.symm
        rwa [List.append_nil] at this
    | cons first mid =>
        obtain ⟨rfl, -⟩ := List.cons.inj hrest
        exact h before r mid hsame

/-- What a pass keeps, one target after the other. -/
structure Passing (log : List (Report F)) (visits : List (Visit F)) (g : Progress F) : Prop where
  remembers : Remembers g.promoter (log ++ g.reports)
  sound : SoundFrom rates log g.reports
  read : ∀ r ∈ g.reports, ∃ visit ∈ visits, r.target = visit.target ∧
    r.reading = Promotion.read visit.scrape visit.target.routes
  once : ∀ before r after, g.reports = before ++ r :: after → Carried r →
    r.target.ingress ∈ g.promoter.finished ∧ ∀ r' ∈ after, r'.target.ingress ≠ r.target.ingress

private theorem Passing.step {log : List (Report F)} {visits : List (Visit F)} {visit : Visit F}
    {g g' : Progress F} {now : Nat} (hg : Passing rates log visits g) (hvisit : visit ∈ visits)
    (h : Passes rates now visit g g') : Passing rates log visits g' := by
  cases h with
  | closed hclosed hsame =>
      rw [hsame]
      exact hg
  | waiting deadline hdue hlater hreports hpromoter =>
      refine ⟨?_, by rw [hreports]; exact hg.sound, by rw [hreports]; exact hg.read, ?_⟩
      · rw [hreports, hpromoter]
        exact hg.remembers
      · rw [hreports, hpromoter]
        exact hg.once
  | evaluated r hopen hunmarked hevaluates hreports =>
      have hbefore : Remembers { g.promoter with
          due := insert g.promoter.due visit.target.ingress
            (now + visit.target.policy.interval * NANOS) } (log ++ g.reports) := hg.remembers
      obtain ⟨hafter, hsound⟩ := hevaluates.sound rates hbefore hopen
      have hmarks := hevaluates.finished
      refine ⟨by rw [hreports, ← List.append_assoc]; exact hafter,
        by rw [hreports]; exact hg.sound.concat rates hsound, ?_, ?_⟩
      · intro r' hr'
        rw [hreports] at hr'
        rcases List.mem_append.mp hr' with hr' | hr'
        · exact hg.read r' hr'
        · rw [List.mem_singleton.mp hr']
          exact ⟨visit, hvisit, hevaluates.target, hevaluates.reading⟩
      · intro before r0 after hsplit hcarried
        rw [hreports] at hsplit
        rcases List.eq_nil_or_concat after with rfl | ⟨after, last, rfl⟩
        · obtain ⟨-, hlast⟩ := List.append_inj' hsplit rfl
          cases hlast
          exact ⟨(hmarks _).mpr (.inr ⟨rfl, hcarried⟩), fun _ h => nomatch h⟩
        · rw [List.concat_eq_append] at hsplit ⊢
          have hshift : g.reports ++ [r] = (before ++ r0 :: after) ++ [last] := by
            simpa using hsplit
          obtain ⟨hold, hlast⟩ := List.append_inj' hshift rfl
          cases hlast
          obtain ⟨hmarked, hapart⟩ := hg.once before r0 after hold hcarried
          refine ⟨(hmarks _).mpr (.inl hmarked), fun r' hr' => ?_⟩
          rcases List.mem_append.mp hr' with hr' | hr'
          · exact hapart r' hr'
          · rw [List.mem_singleton.mp hr', hevaluates.target]
            intro hsame
            rw [hsame] at hunmarked
            exact hunmarked hmarked

private theorem passing_foldl {log : List (Report F)} {all : List (Visit F)} (now : Nat)
    (visits : List (Visit F)) (hall : ∀ visit ∈ visits, visit ∈ all) {g : Progress F}
    (hg : Passing rates log all g) :
    Passing rates log all (visits.foldl (passOver rates now) g) := by
  induction visits generalizing g with
  | nil => exact hg
  | cons visit visits ih =>
      refine ih (fun v hv => hall v (List.mem_cons_of_mem _ hv)) ?_
      exact hg.step rates (hall visit List.mem_cons_self) (passes rates now g visit)

/-- A finished target of the list stays finished through a pass, and is not looked at. -/
private theorem marked_foldl (now : Nat) (visits : List (Visit F)) (g : Progress F)
    {key : ObjectKey} (hkey : key ∈ g.promoter.finished)
    (hreports : ∀ r ∈ g.reports, r.target.ingress ≠ key) :
    key ∈ (visits.foldl (passOver rates now) g).promoter.finished ∧
      ∀ r ∈ (visits.foldl (passOver rates now) g).reports, r.target.ingress ≠ key := by
  induction visits generalizing g with
  | nil => exact ⟨hkey, hreports⟩
  | cons visit visits ih =>
      have hstep := passes rates now g visit
      rw [List.foldl_cons]
      generalize passOver rates now g visit = g' at hstep ⊢
      cases hstep with
      | closed hclosed hsame =>
          rw [hsame]
          exact ih g hkey hreports
      | waiting deadline hdue hlater hsame hpromoter =>
          exact ih g' (by rw [hpromoter]; exact hkey) (by rw [hsame]; exact hreports)
      | evaluated r hopen hunmarked hevaluates hsame =>
          refine ih g' ((hevaluates.finished rates key).mpr (.inl hkey)) ?_
          intro r' hr'
          rw [hsame] at hr'
          rcases List.mem_append.mp hr' with hr' | hr'
          · exact hreports r' hr'
          · rw [List.mem_singleton.mp hr', hevaluates.target]
            intro heq
            rw [heq] at hunmarked
            exact hunmarked hkey

/-- What a pass marks finished, it has carried out a patch for. -/
private theorem finished_foldl (now : Nat) (visits : List (Visit F)) (g : Progress F)
    {key : ObjectKey} (hkey : key ∈ (visits.foldl (passOver rates now) g).promoter.finished) :
    key ∈ g.promoter.finished ∨ ∃ r ∈ (visits.foldl (passOver rates now) g).reports,
      r.target.ingress = key ∧ Carried r := by
  induction visits using List.reverseRecOn with
  | nil => exact .inl hkey
  | append_singleton visits visit ih =>
      rw [List.foldl_append, List.foldl_cons, List.foldl_nil] at hkey ⊢
      have hstep := passes rates now (visits.foldl (passOver rates now) g) visit
      generalize passOver rates now (visits.foldl (passOver rates now) g) visit = g' at hstep hkey ⊢
      cases hstep with
      | closed hclosed hsame =>
          rw [hsame] at hkey ⊢
          exact ih hkey
      | waiting deadline hdue hlater hsame hpromoter =>
          rw [hpromoter] at hkey
          rw [hsame]
          exact ih hkey
      | evaluated r hopen hunmarked hevaluates hsame =>
          rw [hsame]
          rcases (hevaluates.finished rates key).mp hkey with hkey | hcarried
          · rcases ih hkey with hbefore | ⟨r', hr', hdone⟩
            · exact .inl hbefore
            · exact .inr ⟨r', List.mem_append_left _ hr', hdone⟩
          · exact .inr ⟨r, List.mem_append_right _ (List.mem_singleton_self _), hcarried⟩

end Passes

section Turns

theorem turn_paused (p : Promoter) {t : Turn F} (hpinned : t.pinned = true) :
    (turn rates p t).2 = [] := by
  unfold turn Promotion.pass
  rw [hpinned]
  split
  · rfl
  · rfl

/-- What a turn does where it makes a pass that is not paused. -/
theorem turn_passes (p : Promoter) {t : Turn F} (hlisted : t.visits ≠ [])
    (hpinned : t.pinned = false) :
    turn rates p t =
      ((t.visits.foldl (passOver rates t.now)
          ⟨({ p with pinnedReported := false } : Promoter).forget (liveKeys t.visits), IDLE_POLL,
            []⟩).promoter,
        (t.visits.foldl (passOver rates t.now)
          ⟨({ p with pinnedReported := false } : Promoter).forget (liveKeys t.visits), IDLE_POLL,
            []⟩).reports) := by
  unfold turn Promotion.pass
  rw [hpinned, List.isEmpty_eq_false_iff.mpr hlisted]
  rfl

/-- A turn with an empty list, or under a pin, leaves what is remembered alone. -/
theorem turn_idle (p : Promoter) {t : Turn F} (hidle : t.visits = [] ∨ t.pinned = true) :
    (turn rates p t).2 = [] ∧ (turn rates p t).1.baselines = p.baselines ∧
      (turn rates p t).1.due = p.due ∧ (turn rates p t).1.finished = p.finished := by
  unfold turn Promotion.pass
  rcases hidle with hempty | hpinned
  · rw [hempty]
    exact ⟨rfl, rfl, rfl, rfl⟩
  · rw [hpinned]
    split
    · exact ⟨rfl, rfl, rfl, rfl⟩
    · exact ⟨rfl, rfl, rfl, rfl⟩

/-- Either a turn is idle, or it passes over its list. -/
theorem idle_or_passes (t : Turn F) :
    (t.visits = [] ∨ t.pinned = true) ∨ (t.visits ≠ [] ∧ t.pinned = false) := by
  by_cases hempty : t.visits = []
  · exact .inl (.inl hempty)
  · cases hpinned : t.pinned with
    | true => exact .inl (.inr rfl)
    | false => exact .inr ⟨hempty, rfl⟩

/-- What a turn says and leaves, given that the promoter remembers the log before it. -/
structure TurnSafe (log : List (Report F)) (p : Promoter) (t : Turn F) (p' : Promoter)
    (reports : List (Report F)) : Prop where
  remembers : Remembers p' (log ++ reports)
  sound : SoundFrom rates log reports
  read : ∀ r ∈ reports, ∃ visit ∈ t.visits, r.target = visit.target ∧
    r.reading = Promotion.read visit.scrape visit.target.routes
  once : ∀ before r after, reports = before ++ r :: after → Carried r →
    r.target.ingress ∈ p'.finished ∧ ∀ r' ∈ after, r'.target.ingress ≠ r.target.ingress
  marked : ∀ key ∈ p'.finished, key ∈ p.finished ∨ ∃ r ∈ reports, r.target.ingress = key ∧ Carried r
  kept : ∀ key ∈ p.finished, key ∈ liveKeys t.visits → key ∈ p'.finished ∧
    ∀ r ∈ reports, r.target.ingress ≠ key

theorem turn_safe {log : List (Report F)} {p : Promoter} (hp : Remembers p log) (t : Turn F) :
    TurnSafe rates log p t (turn rates p t).1 (turn rates p t).2 := by
  rcases idle_or_passes t with hidle | ⟨hlisted, hpinned⟩
  · obtain ⟨hreports, hbaselines, -, hfinished⟩ := turn_idle rates p hidle
    rw [hreports]
    refine ⟨?_, ?_, (fun _ h => nomatch h), ?_, ?_, ?_⟩
    · unfold Remembers
      rw [hbaselines, List.append_nil]
      exact hp
    · intro before r after h
      exact absurd h.symm (by simp)
    · intro before r after h
      exact absurd h.symm (by simp)
    · rw [hfinished]
      exact fun key hkey => .inl hkey
    · rw [hfinished]
      exact fun key hkey _ => ⟨hkey, fun _ h => nomatch h⟩
  · rw [turn_passes rates p hlisted hpinned]
    have hstart : Passing rates log t.visits
        ⟨({ p with pinnedReported := false } : Promoter).forget (liveKeys t.visits), IDLE_POLL,
          []⟩ := by
      refine ⟨fun key b hb => ?_, ?_, (fun _ h => nomatch h), ?_⟩
      · rw [Promoter.forget, get_retain] at hb
        rw [List.append_nil]
        split at hb
        · exact hp key b hb
        · cases hb
      · intro before r after h
        exact absurd h.symm (by simp)
      · intro before r after h
        exact absurd h.symm (by simp)
    have hdone := passing_foldl rates t.now t.visits (fun _ h => h) hstart
    refine ⟨hdone.remembers, hdone.sound, hdone.read, hdone.once, fun key hkey => ?_,
      fun key hkey hlive => ?_⟩
    · rcases finished_foldl rates t.now t.visits _ hkey with hbefore | hcarried
      · exact .inl (List.mem_of_mem_filter hbefore)
      · exact .inr hcarried
    · exact marked_foldl rates t.now t.visits _
        (List.mem_filter.mpr ⟨hkey, by simpa using hlive⟩) fun _ h => nomatch h

end Turns

section Runs

theorem runTurns_append (p : Promoter) (pre post : List (Turn F)) :
    runTurns rates p (pre ++ post) = runTurns rates (runTurns rates p pre) post :=
  List.foldl_append

/-- Along a run the promoter remembers the log, and every report is sound. -/
private theorem run_sound {log : List (Report F)} {p : Promoter} (hp : Remembers p log)
    (turns : List (Turn F)) :
    Remembers (runTurns rates p turns) (log ++ reportsOf rates p turns) ∧
      SoundFrom rates log (reportsOf rates p turns) := by
  induction turns generalizing p log with
  | nil =>
      rw [reportsOf, List.append_nil]
      exact ⟨hp, fun before r after h => absurd h.symm (by simp)⟩
  | cons t turns ih =>
      have hturn := turn_safe rates hp t
      obtain ⟨hlater, hsound⟩ := ih hturn.remembers
      rw [reportsOf]
      refine ⟨?_, hturn.sound.append rates hsound⟩
      rw [← List.append_assoc]
      exact hlater

/-- Turns that all list a finished target keep it finished. -/
private theorem finished_kept {log : List (Report F)} {p : Promoter} (hp : Remembers p log)
    (turns : List (Turn F)) {key : ObjectKey} (hkey : key ∈ p.finished)
    (hlisted : ∀ t ∈ turns, key ∈ liveKeys t.visits) :
    key ∈ (runTurns rates p turns).finished := by
  induction turns generalizing p log with
  | nil => exact hkey
  | cons t turns ih =>
      have hturn := turn_safe rates hp t
      exact ih hturn.remembers (hturn.kept key hkey (hlisted t List.mem_cons_self)).1
        fun t' ht' => hlisted t' (List.mem_cons_of_mem _ ht')

/-- What a promotion loop may do, along one run. -/
structure Safe (turns : List (Turn F)) : Prop where
  sound : ∀ earlier r later, reportsOf rates {} turns = earlier ++ r :: later →
    Sound rates earlier r
  read : ∀ pre t post, turns = pre ++ t :: post → ∀ r ∈ (turn rates (runTurns rates {} pre) t).2,
    ∃ visit ∈ t.visits, r.target = visit.target ∧
      r.reading = Promotion.read visit.scrape visit.target.routes
  paused : ∀ pre t post, turns = pre ++ t :: post → t.pinned = true →
    (turn rates (runTurns rates {} pre) t).2 = []
  onceInPass : ∀ pre t post, turns = pre ++ t :: post → ∀ before r after,
    (turn rates (runTurns rates {} pre) t).2 = before ++ r :: after → Carried r →
      ∀ r' ∈ after, r'.target.ingress ≠ r.target.ingress
  onceAcross : ∀ pre t mid later post, turns = pre ++ t :: (mid ++ later :: post) →
    ∀ r ∈ (turn rates (runTurns rates {} pre) t).2, Carried r →
      (∀ between ∈ mid, r.target.ingress ∈ liveKeys between.visits) →
        ∀ r' ∈ (turn rates (runTurns rates {} (pre ++ t :: mid)) later).2,
          r'.target.ingress ≠ r.target.ingress
  marked : ∀ pre t post, turns = pre ++ t :: post →
    ∀ key ∈ (turn rates (runTurns rates {} pre) t).1.finished,
      key ∈ (runTurns rates {} pre).finished ∨
        ∃ r ∈ (turn rates (runTurns rates {} pre) t).2, r.target.ingress = key ∧ Carried r

private theorem remembers_run (turns : List (Turn F)) :
    Remembers (runTurns rates {} turns) (reportsOf rates {} turns) := by
  have hfresh : Remembers ({} : Promoter) ([] : List (Report F)) := fun _ _ h => nomatch h
  simpa using (run_sound rates hfresh turns).1

/-- Whatever the targets, the counters, the pins and the answers to its patches, a promotion loop
only does what it may. -/
theorem promoter_safe (turns : List (Turn F)) : Safe rates turns where
  sound := by
    intro earlier r later hsplit
    have hfresh : Remembers ({} : Promoter) ([] : List (Report F)) := fun _ _ h => nomatch h
    exact (run_sound rates hfresh turns).2 earlier r later hsplit
  read := fun pre t _ _ => (turn_safe rates (remembers_run rates pre) t).read
  paused := fun pre t _ _ hpinned => turn_paused rates _ hpinned
  onceInPass := fun pre t _ _ before r after hsplit hcarried =>
    ((turn_safe rates (remembers_run rates pre) t).once before r after hsplit hcarried).2
  onceAcross := by
    intro pre t mid later post _ r hr hcarried hlisted r' hr' hsame
    have hturn := turn_safe rates (remembers_run rates pre) t
    obtain ⟨before, after, hsplit⟩ := List.append_of_mem hr
    have hmarked := (hturn.once before r after hsplit hcarried).1
    have hkept : r.target.ingress ∈ (runTurns rates {} (pre ++ t :: mid)).finished := by
      rw [runTurns_append]
      exact finished_kept rates hturn.remembers mid hmarked hlisted
    have hlater := turn_safe rates (remembers_run rates (pre ++ t :: mid)) later
    obtain ⟨visit, hvisit, htarget, -⟩ := hlater.read r' hr'
    have hlive : r.target.ingress ∈ liveKeys later.visits := by
      rw [← hsame, htarget]
      exact List.mem_map.mpr ⟨visit, hvisit, rfl⟩
    exact (hlater.kept _ hkept hlive).2 r' hr' hsame
  marked := fun pre t _ _ => (turn_safe rates (remembers_run rates pre) t).marked

end Runs

end Ramjet.Ingressd.PromoterSafety
