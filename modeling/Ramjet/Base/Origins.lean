/- digest: Where in a run something came from, and what the run has not done since. -/

import Mathlib.Data.List.Induction
import Ramjet.Base.Machine

set_option autoImplicit false
set_option relaxedAutoImplicit false

namespace Ramjet.Base.Origins

open Ramjet.Base.Machine

variable {σ α : Type} {step : σ → α → Option σ}

theorem run_snoc {s t : σ} {as : List α} {a : α} (h : run step s (as ++ [a]) = some t) :
    ∃ mid, run step s as = some mid ∧ step mid a = some t := by
  rw [run_append] at h
  obtain ⟨mid, hmid, hlast⟩ := Option.bind_eq_some_iff.mp h
  refine ⟨mid, hmid, ?_⟩
  unfold run at hlast
  split at hlast
  · rename_i s' hnext
    rw [hnext]
    exact hlast
  · cases hlast

/-- A property of the state a run leads to and of the whole run, step by step. -/
theorem follow (inv : List α → σ → Prop) {start : σ} (hstart : inv [] start)
    (hstep : ∀ past s a s', inv past s → step s a = some s' → inv (past ++ [a]) s')
    {as : List α} {s : σ} (hrun : run step start as = some s) : inv as s := by
  induction as using List.reverseRecOn generalizing s with
  | nil =>
      cases hrun
      exact hstart
  | append_singleton past a ih =>
      obtain ⟨mid, hmid, hlast⟩ := run_snoc hrun
      exact hstep past mid a s (ih hmid) hlast

/-- One action of a run began something, and none after it ended it. -/
def Since (step : σ → α → Option σ) (start : σ) (begins : σ → α → Prop) (spares : α → Prop)
    (as : List α) : Prop :=
  ∃ past a after s, as = past ++ a :: after ∧ run step start past = some s ∧ begins s a ∧
    ∀ b ∈ after, spares b

variable {start : σ} {begins : σ → α → Prop} {spares : α → Prop}

theorem Since.spared {as : List α} (h : Since step start begins spares as) {b : α}
    (hb : spares b) : Since step start begins spares (as ++ [b]) := by
  obtain ⟨past, a, after, s, rfl, hrun, hbegins, hspares⟩ := h
  refine ⟨past, a, after ++ [b], s, by simp, hrun, hbegins, fun c hc => ?_⟩
  rcases List.mem_append.mp hc with hc | hc
  · exact hspares c hc
  · cases List.mem_singleton.mp hc
    exact hb

/-- What just these steps bring about, and just the others leave, stands where a step of the run
brought it about and none since has ended it. -/
theorem since_iff (good : σ → Prop) (hstart : ¬ good start)
    (hstep : ∀ s a s', step s a = some s' → (good s' ↔ begins s a ∨ good s ∧ spares a))
    {as : List α} {s : σ} (hrun : run step start as = some s) :
    good s ↔ Since step start begins spares as := by
  induction as using List.reverseRecOn generalizing s with
  | nil =>
      cases hrun
      refine ⟨fun hgood => absurd hgood hstart, ?_⟩
      rintro ⟨past, a, after, _, hsplit, _⟩
      cases past <;> cases hsplit
  | append_singleton past a ih =>
      obtain ⟨mid, hmid, hlast⟩ := run_snoc hrun
      rw [hstep mid a s hlast]
      constructor
      · rintro (hbegins | ⟨hkept, hspares⟩)
        · exact ⟨past, a, [], mid, rfl, hmid, hbegins, by simp⟩
        · exact ((ih hmid).mp hkept).spared hspares
      · rintro ⟨before, b, after, t, hsplit, hbefore, hbegins, hspares⟩
        rcases List.eq_nil_or_concat after with rfl | ⟨after, c, rfl⟩
        · obtain ⟨rfl, hb⟩ := List.append_inj' hsplit rfl
          cases hb
          cases hmid.symm.trans hbefore
          exact Or.inl hbegins
        · rw [List.concat_eq_append, ← List.cons_append, ← List.append_assoc] at hsplit
          obtain ⟨rfl, hc⟩ := List.append_inj' hsplit rfl
          cases hc
          refine Or.inr ⟨(ih hmid).mpr ⟨before, b, after, t, rfl, hbefore, hbegins, ?_⟩, ?_⟩
          · exact fun c hc => hspares c (by simp [hc])
          · exact hspares a (by simp)

end Ramjet.Base.Origins
