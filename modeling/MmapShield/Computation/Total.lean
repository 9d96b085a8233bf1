import Mathlib.Algebra.BigOperators.Group.Finset.Basic
import Mathlib.Data.Fintype.BigOperators

/-!
# Totals over all agents

What the agents of a machine contribute together, each according to its place in its
code: a number, a multiset, anything that adds up. A step moves one agent, so it changes
a total by the difference of two places.
-/

set_option autoImplicit false

namespace MmapShield.Computation

variable {ι σ M : Type*} [Fintype ι] [DecidableEq ι] [AddCommMonoid M]

/-- The sum of what each agent contributes at its place. -/
def total (g : σ → M) (place : ι → σ) : M := ∑ t, g (place t)

omit [DecidableEq ι] in
/-- INTERNAL: agents that contribute nothing. -/
theorem total_eq_zero {g : σ → M} {place : ι → σ} (h : ∀ t, g (place t) = 0) :
    total g place = 0 :=
  Finset.sum_eq_zero fun t _ => h t

omit [DecidableEq ι] in
/-- INTERNAL: a measure of a total is the total of the measures. -/
theorem total_map {N : Type*} [AddCommMonoid N] (f : M →+ N) (g : σ → M) (place : ι → σ) :
    f (total g place) = total (fun c => f (g c)) place :=
  map_sum f _ _

/-- INTERNAL: **one agent moves.** -/
theorem total_update (g : σ → M) (place : ι → σ) (t : ι) (c : σ) :
    total g (Function.update place t c) + g (place t) = total g place + g c := by
  have hold : total g place = g (place t) + ∑ u ∈ Finset.univ.erase t, g (place u) :=
    (Finset.add_sum_erase Finset.univ (fun u => g (place u)) (Finset.mem_univ t)).symm
  have hnew : total g (Function.update place t c) =
      g c + ∑ u ∈ Finset.univ.erase t, g (place u) := by
    have hsplit := Finset.add_sum_erase Finset.univ
      (fun u => g (Function.update place t c u)) (Finset.mem_univ t)
    rw [Function.update_self] at hsplit
    rw [total, ← hsplit]
    congr 1
    apply Finset.sum_congr rfl
    intro u hu
    rw [Function.update_of_ne (Finset.ne_of_mem_erase hu)]
  rw [hold, hnew, add_comm (g c), add_comm (g (place t)), add_right_comm]

variable {N : Type*} [AddCancelCommMonoid N]

/-- INTERNAL: an agent that moves to a place with a larger contribution. -/
theorem total_update_add {g : σ → N} {place : ι → σ} {t : ι} {c : σ} {q : N}
    (h : g c = g (place t) + q) : total g (Function.update place t c) = total g place + q := by
  have hmove := total_update g place t c
  rw [h, add_comm (g (place t)) q, ← add_assoc] at hmove
  exact add_right_cancel hmove

/-- INTERNAL: an agent that moves to a place with a smaller contribution. -/
theorem total_update_drop {g : σ → N} {place : ι → σ} {t : ι} {c : σ} {q : N}
    (h : g (place t) = g c + q) : total g (Function.update place t c) + q = total g place := by
  have hmove := total_update g place t c
  rw [h, add_comm (g c) q, ← add_assoc] at hmove
  exact add_right_cancel hmove

/-- INTERNAL: an agent that moves between places with the same contribution. -/
theorem total_update_same {g : σ → N} {place : ι → σ} {t : ι} {c : σ}
    (h : g c = g (place t)) : total g (Function.update place t c) = total g place := by
  have hmove := total_update_add (q := 0) (by rw [h, add_zero] : g c = g (place t) + 0)
  rw [add_zero] at hmove
  exact hmove

end MmapShield.Computation
