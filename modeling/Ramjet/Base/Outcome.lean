/- digest: Taking apart a computation that may fail. -/

import Mathlib.Tactic.Common

set_option autoImplicit false
set_option relaxedAutoImplicit false

namespace Ramjet.Base.Outcome

variable {ε α β : Type}

/-- A sequence succeeds exactly when each of its steps does. -/
theorem bind_eq_ok {x : Except ε α} {f : α → Except ε β} {b : β} :
    (x >>= f) = .ok b ↔ ∃ a, x = .ok a ∧ f a = .ok b := by
  cases x with
  | error e => simp [bind, Except.bind]
  | ok a => simp [bind, Except.bind]

theorem map_eq_ok {f : α → β} {x : Except ε α} {b : β} :
    x.map f = .ok b ↔ ∃ a, x = .ok a ∧ f a = b := by
  cases x with
  | error e => simp [Except.map]
  | ok a => simp [Except.map]

/-- Run a fallible step on an optional input. -/
def optional (f : α → Except ε β) : Option α → Except ε (Option β)
  | none => .ok none
  | some a => (f a).map some

theorem optional_eq_ok {f : α → Except ε β} {o : Option α} {r : Option β} :
    optional f o = .ok r ↔
      (o = none ∧ r = none) ∨ ∃ a b, o = some a ∧ f a = .ok b ∧ r = some b := by
  cases o with
  | none => simp [optional, eq_comm]
  | some a =>
      cases hfa : f a with
      | error e => simp [optional, hfa, Except.map]
      | ok b => simp [optional, hfa, Except.map, eq_comm]

end Ramjet.Base.Outcome
