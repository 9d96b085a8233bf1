import MmapShield.Computation.Machine

/-!
# One machine in terms of another

A machine refines another one when each of its steps is matched by some steps of the other,
none of them included, from related states to related states. `run_simulates` carries this from
steps to runs, and `leads_simulates` does so for actions of a kind. `run_projects` is for a machine
that has a counterpart for some of the actions only, and `run_erases` for one that leaves some out.
`run_map` is for a map between the states that every step commutes with: both machines can do the
same.
-/

set_option autoImplicit false

namespace MmapShield.Computation

variable {σ τ α β : Type*} {step : α → σ → Option σ} {step' : β → τ → Option τ}
  {C : α → σ → Prop} {s t : σ} {u : τ}

/-- INTERNAL: **the simulation rule.** Steps that are matched from related states to related
states make runs that are matched. -/
theorem run_simulates (R : σ → τ → Prop)
    (hstep : ∀ a s t u, C a s → R s u → step a s = some t →
      ∃ bs v, run step' bs u = some v ∧ R t v)
    (as : List α) (hR : R s u) (hC : Along step C as s) (h : run step as s = some t) :
    ∃ bs v, run step' bs u = some v ∧ R t v := by
  induction as generalizing s u with
  | nil =>
      simp only [run, Option.some.injEq] at h
      exact ⟨[], u, rfl, h ▸ hR⟩
  | cons a as ih =>
      obtain ⟨w, hw, hrest⟩ := (run_cons a as).mp h
      obtain ⟨bs, v, hv, hRv⟩ := hstep a s w u hC.1 hR hw
      obtain ⟨cs, x, hx, hRx⟩ := ih hRv (hC.2 w hw) hrest
      exact ⟨bs ++ cs, x, (run_append bs cs).mpr ⟨v, hv, hx⟩, hRx⟩

/-- INTERNAL: **the rule of projection.** When some of the actions have a counterpart that matches
them and the others can be left out, the counterparts alone are a run. -/
theorem run_projects (R : σ → τ → Prop) (p : α → Option β)
    (hkeep : ∀ a b s t u, p a = some b → C a s → R s u → step a s = some t →
      ∃ v, step' b u = some v ∧ R t v)
    (hdrop : ∀ a s t u, p a = none → C a s → R s u → step a s = some t → R t u)
    (as : List α) (hR : R s u) (hC : Along step C as s) (h : run step as s = some t) :
    ∃ v, run step' (as.filterMap p) u = some v ∧ R t v := by
  induction as generalizing s u with
  | nil =>
      simp only [run, Option.some.injEq] at h
      exact ⟨u, rfl, h ▸ hR⟩
  | cons a as ih =>
      obtain ⟨w, hw, hrest⟩ := (run_cons a as).mp h
      cases hp : p a with
      | some b =>
          obtain ⟨v, hv, hRv⟩ := hkeep a b s w u hp hC.1 hR hw
          obtain ⟨x, hx, hRx⟩ := ih hRv (hC.2 w hw) hrest
          rw [List.filterMap_cons_some hp]
          exact ⟨x, (run_cons b _).mpr ⟨v, hv, hx⟩, hRx⟩
      | none =>
          rw [List.filterMap_cons_none hp]
          exact ih (hdrop a s w u hp hC.1 hR hw) (hC.2 w hw) hrest

/-- INTERNAL: **the rule of erasure.** When the actions that `p` rejects can be left out and the
others are matched by themselves, the run without the rejected actions is a run. -/
theorem run_erases {step' : α → τ → Option τ} (R : σ → τ → Prop) (p : α → Bool)
    (hkeep : ∀ a s t u, p a = true → R s u → step a s = some t →
      ∃ v, step' a u = some v ∧ R t v)
    (hdrop : ∀ a s t u, p a = false → R s u → step a s = some t → R t u)
    (as : List α) (hR : R s u) (h : run step as s = some t) :
    ∃ v, run step' (as.filter p) u = some v ∧ R t v := by
  have halways : Along step (fun _ _ => True) as s := along_of_forall fun _ _ _ => trivial
  rw [← List.filterMap_eq_filter]
  refine run_projects R (Option.guard p) ?_ ?_ as hR halways h
  · intro a b s t u hp _ hR hstep
    obtain ⟨rfl, hmeets⟩ := Option.guard_eq_some_iff.mp hp
    exact hkeep a s t u hmeets hR hstep
  · intro a s t u hp _ hR hstep
    exact hdrop a s t u (by simpa using hp) hR hstep

/-- INTERNAL: a map of the states that commutes with the steps commutes with the runs. -/
theorem run_map {step' : α → τ → Option τ} (g : σ → τ)
    (hstep : ∀ a s, step' a (g s) = (step a s).map g) (as : List α) (s : σ) :
    run step' as (g s) = (run step as s).map g := by
  induction as generalizing s with
  | nil => rfl
  | cons a as ih =>
      simp only [run, hstep]
      cases step a s with
      | none => rfl
      | some t => exact ih t

/-! ## Runs of some of the actions -/

/-- Some run all of whose actions meet `A` leads from one state to the other. -/
def Leads (step : α → σ → Option σ) (A : α → Prop) (s t : σ) : Prop :=
  ∃ as : List α, (∀ a ∈ as, A a) ∧ run step as s = some t

namespace Leads

variable {A : α → Prop} {r : σ}

/-- INTERNAL: no step at all. -/
theorem refl (s : σ) : Leads step A s s := ⟨[], by simp, rfl⟩

/-- INTERNAL: one step and then a run. -/
theorem head {a : α} (ha : A a) (hstep : step a s = some t) (h : Leads step A t r) :
    Leads step A s r := by
  obtain ⟨as, has, hrun⟩ := h
  refine ⟨a :: as, ?_, (run_cons a as).mpr ⟨t, hstep, hrun⟩⟩
  intro b hb
  rcases List.mem_cons.mp hb with rfl | hb
  · exact ha
  · exact has b hb

/-- INTERNAL: two runs, one after the other. -/
theorem trans (hst : Leads step A s t) (htr : Leads step A t r) : Leads step A s r := by
  obtain ⟨as, has, hrun⟩ := hst
  induction as generalizing s with
  | nil =>
      cases hrun
      exact htr
  | cons a as ih =>
      obtain ⟨u, hu, hrest⟩ := (run_cons a as).mp hrun
      exact head (has a List.mem_cons_self) hu
        (ih (fun b hb => has b (List.mem_cons_of_mem a hb)) hrest)

/-- INTERNAL: fewer actions are among more. -/
theorem mono {B : α → Prop} (hAB : ∀ a, A a → B a) (h : Leads step A s t) : Leads step B s t := by
  obtain ⟨as, has, hrun⟩ := h
  exact ⟨as, fun a ha => hAB a (has a ha), hrun⟩

end Leads

/-- INTERNAL: the simulation rule for actions of a kind, each matched by a run of actions of a
kind. -/
theorem leads_simulates (R : σ → τ → Prop) {A : α → Prop} {B : β → Prop}
    (hstep : ∀ a s t u, A a → R s u → step a s = some t → ∃ v, Leads step' B u v ∧ R t v)
    (as : List α) (has : ∀ a ∈ as, A a) (hR : R s u) (h : run step as s = some t) :
    ∃ v, Leads step' B u v ∧ R t v := by
  induction as generalizing s u with
  | nil =>
      simp only [run, Option.some.injEq] at h
      exact ⟨u, .refl u, h ▸ hR⟩
  | cons a as ih =>
      obtain ⟨w, hw, hrest⟩ := (run_cons a as).mp h
      obtain ⟨v, hv, hRv⟩ := hstep a s w u (has a List.mem_cons_self) hR hw
      obtain ⟨x, hx, hRx⟩ := ih (fun b hb => has b (List.mem_cons_of_mem a hb)) hRv hrest
      exact ⟨x, hv.trans hx, hRx⟩

end MmapShield.Computation
