/- digest: Runs of a guarded step function, and what every state along a run satisfies. -/

import Mathlib.Tactic.Basic

set_option autoImplicit false
set_option relaxedAutoImplicit false

namespace Ramjet.Base.Machine

variable {σ α : Type}

/-- The state after a list of actions, absent where one of them was not enabled. -/
def run (step : σ → α → Option σ) : σ → List α → Option σ
  | s, [] => some s
  | s, a :: as =>
      match step s a with
      | some s' => run step s' as
      | none => none

/-- A property of every state along a run. -/
def Always (step : σ → α → Option σ) (good : σ → Prop) : σ → List α → Prop
  | s, [] => good s
  | s, a :: as => good s ∧ ∀ s', step s a = some s' → Always step good s' as

/-- A condition on every step of a run, stated on the state the step starts from. -/
def Meets (step : σ → α → Option σ) (ok : σ → α → Prop) : σ → List α → Prop
  | _, [] => True
  | s, a :: as => ok s a ∧ ∀ s', step s a = some s' → Meets step ok s' as

variable {step : σ → α → Option σ}

theorem run_append (s : σ) (as bs : List α) :
    run step s (as ++ bs) = (run step s as).bind fun s' => run step s' bs := by
  induction as generalizing s with
  | nil => rfl
  | cons a as ih =>
      simp only [List.cons_append, run]
      cases step s a with
      | none => rfl
      | some s' => exact ih s'

/-- What every enabled step preserves holds at the end of every run. -/
theorem invariant_run {inv : σ → Prop}
    (hstep : ∀ s a s', inv s → step s a = some s' → inv s') {s s' : σ} {as : List α}
    (hs : inv s) (hrun : run step s as = some s') : inv s' := by
  induction as generalizing s with
  | nil =>
      cases hrun
      exact hs
  | cons a as ih =>
      simp only [run] at hrun
      split at hrun
      · rename_i mid hmid
        exact ih (hstep s a mid hs hmid) hrun
      · cases hrun

theorem Always.head {good : σ → Prop} {s : σ} {as : List α} (h : Always step good s as) :
    good s := by
  cases as with
  | nil => exact h
  | cons a as => exact h.1

/-- What holds all along a run holds at its end. -/
theorem good_of_always {good : σ → Prop} {s s' : σ} {as : List α} (h : Always step good s as)
    (hrun : run step s as = some s') : good s' := by
  induction as generalizing s with
  | nil =>
      cases hrun
      exact h
  | cons a as ih =>
      simp only [run] at hrun
      split at hrun
      · rename_i mid hmid
        exact ih (h.2 mid hmid) hrun
      · cases hrun

/-- What every step of a run preserves, under a condition each of them meets, holds all along it. -/
theorem always_of_meets {inv good : σ → Prop} {ok : σ → α → Prop}
    (hstep : ∀ s a s', inv s → ok s a → step s a = some s' → inv s')
    (hgood : ∀ s, inv s → good s) {s : σ} (hs : inv s) {as : List α}
    (hmeets : Meets step ok s as) : Always step good s as := by
  induction as generalizing s with
  | nil => exact hgood s hs
  | cons a as ih =>
      refine ⟨hgood s hs, fun s' hnext => ?_⟩
      exact ih (hstep s a s' hs hmeets.1 hnext) (hmeets.2 s' hnext)

/-- A condition on every step of a run, checked. -/
def checks (step : σ → α → Option σ) (check : σ → α → Bool) : σ → List α → Bool
  | _, [] => true
  | s, a :: as => check s a && (step s a).all fun s' => checks step check s' as

theorem meets_of_checks {ok : σ → α → Prop} {check : σ → α → Bool}
    (hcheck : ∀ s a, check s a = true → ok s a) {s : σ} {as : List α}
    (h : checks step check s as = true) : Meets step ok s as := by
  induction as generalizing s with
  | nil => trivial
  | cons a as ih =>
      simp only [checks, Bool.and_eq_true] at h
      refine ⟨hcheck s a h.1, fun s' hnext => ih ?_⟩
      rw [hnext] at h
      exact h.2

/-- A property that a step keeps exactly under a condition holds along a run exactly when every
step meets it. -/
theorem always_iff_meets {inv good : σ → Prop} {ok : σ → α → Prop}
    (hinv : ∀ s a s', inv s → step s a = some s' → inv s')
    (hfree : ∀ s a, inv s → step s a = none → ok s a)
    (hgood : ∀ s a s', inv s → good s → step s a = some s' → (good s' ↔ ok s a))
    {s : σ} (hs : inv s) (hs' : good s) (as : List α) :
    Always step good s as ↔ Meets step ok s as := by
  induction as generalizing s with
  | nil => exact ⟨fun _ => trivial, fun _ => hs'⟩
  | cons a as ih =>
      cases hnext : step s a with
      | none =>
          simp only [Always, Meets, hnext]
          exact ⟨fun _ => ⟨hfree s a hs hnext, fun _ h => by cases h⟩,
            fun _ => ⟨hs', fun _ h => by cases h⟩⟩
      | some s' =>
          have hkeeps := hgood s a s' hs hs' hnext
          simp only [Always, Meets, hnext, Option.some.injEq, forall_eq']
          constructor
          · rintro ⟨-, hrest⟩
            have hgood' := hrest.head
            exact ⟨hkeeps.mp hgood', (ih (hinv s a s' hs hnext) hgood').mp hrest⟩
          · rintro ⟨hok, hrest⟩
            exact ⟨hs', (ih (hinv s a s' hs hnext) (hkeeps.mpr hok)).mpr hrest⟩

end Ramjet.Base.Machine
