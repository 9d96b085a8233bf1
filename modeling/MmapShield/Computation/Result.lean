import Mathlib.Logic.Basic

/-!
# Taking apart a computation that returned

The `?` operator is the bind of `Except`. A computation that returned a value has
returned one at each of its binds, and one that failed has failed at the first bind that did;
these rules peel them off one at a time.
-/

set_option autoImplicit false

namespace MmapShield.Computation

universe u v w

variable {ε : Type u} {δ : Type w} {α β : Type v}

/-- INTERNAL: a bind returns a value exactly when both its halves do. -/
theorem bind_eq_ok {x : Except ε α} {f : α → Except ε β} {b : β} :
    (x >>= f) = .ok b ↔ ∃ a, x = .ok a ∧ f a = .ok b := by
  cases x with
  | error e => simp [bind, Except.bind]
  | ok a => simp [bind, Except.bind]

/-- INTERNAL: a bind fails exactly when one of its halves does, the first of them first. -/
theorem bind_eq_error {x : Except ε α} {f : α → Except ε β} {e : ε} :
    (x >>= f) = .error e ↔ x = .error e ∨ ∃ a, x = .ok a ∧ f a = .error e := by
  cases x with
  | error e' => simp [bind, Except.bind]
  | ok a => simp [bind, Except.bind]

/-- INTERNAL: renaming the error does not change when a value is returned. -/
theorem mapError_eq_ok {x : Except ε α} {f : ε → δ} {a : α} :
    x.mapError f = .ok a ↔ x = .ok a := by
  cases x with
  | error e =>
    refine ⟨?_, ?_⟩
    · intro h
      cases h
    · intro h
      cases h
  | ok b =>
    refine ⟨?_, ?_⟩
    · intro h
      cases h
      rfl
    · intro h
      cases h
      rfl

end MmapShield.Computation
