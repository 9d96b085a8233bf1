import MmapShield.Computation.Machine
import Mathlib.Algebra.Order.Ring.Nat

/-!
# Runs that cannot go on for ever

A number that every step makes smaller bounds the length of the runs. Actions that are not counted
may leave it as it is (`run_measure`), and some actions may pay for later ones (`run_potential`).
`run_countdown` is for invariants that need room for the steps to come.
-/

set_option autoImplicit false

namespace MmapShield.Computation

variable {σ α : Type*} {step : α → σ → Option σ} {s t : σ}

/-- INTERNAL: **the rule of termination.** When every counted step makes a measure smaller and no
step makes it larger, the measure bounds the number of counted steps of every run. -/
theorem run_measure (I : σ → Prop) (μ : σ → ℕ) (counted : α → Bool)
    (hI : ∀ a s t, I s → step a s = some t → I t)
    (hμ : ∀ a s t, I s → step a s = some t → μ t + (if counted a then 1 else 0) ≤ μ s)
    (as : List α) (hs : I s) (h : run step as s = some t) : as.countP counted + μ t ≤ μ s := by
  induction as generalizing s with
  | nil =>
      simp only [run, Option.some.injEq] at h
      simp [h]
  | cons a as ih =>
      obtain ⟨u, hu, hrest⟩ := (run_cons a as).mp h
      have hfirst := hμ a s u hs hu
      have hothers := ih (hI a s u hs hu) hrest
      rw [List.countP_cons]
      omega

/-- INTERNAL: **the rule of potentials.** When every step pays its cost from a potential and from
what its action brings in, the actions of every run have brought in the costs of the run and the
potential at its end. -/
theorem run_potential (I : σ → Prop) (μ : σ → ℕ) (cost gain : α → ℕ)
    (hI : ∀ a s t, I s → step a s = some t → I t)
    (hμ : ∀ a s t, I s → step a s = some t → μ t + cost a ≤ μ s + gain a)
    (as : List α) (hs : I s) (h : run step as s = some t) :
    (as.map cost).sum + μ t ≤ μ s + (as.map gain).sum := by
  induction as generalizing s with
  | nil =>
      simp only [run, Option.some.injEq] at h
      simp [h]
  | cons a as ih =>
      obtain ⟨u, hu, hrest⟩ := (run_cons a as).mp h
      have hfirst := hμ a s u hs hu
      have hothers := ih (hI a s u hs hu) hrest
      rw [List.map_cons, List.map_cons, List.sum_cons, List.sum_cons]
      omega

/-- INTERNAL: **the rule of countdowns.** A property of a state and a number of steps to come that
every step passes on holds at the end of a run of that many steps. -/
theorem run_countdown (I : ℕ → σ → Prop)
    (hI : ∀ n a s t, I (n + 1) s → step a s = some t → I n t)
    (as : List α) (hs : I as.length s) (h : run step as s = some t) : I 0 t := by
  induction as generalizing s with
  | nil =>
      simp only [run, Option.some.injEq] at h
      exact h ▸ hs
  | cons a as ih =>
      obtain ⟨u, hu, hrest⟩ := (run_cons a as).mp h
      exact ih (hI as.length a s u hs hu) hrest

end MmapShield.Computation
