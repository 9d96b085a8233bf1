import Mathlib.Logic.Function.Basic
import Mathlib.Tactic.Tauto

/-!
# Machines that take one labelled step at a time

A machine is a partial step function `step : α → σ → Option σ`: `step a s = some t`
says that the action `a` is enabled in the state `s` and leads to `t`. An
interleaving of several agents is a list of actions, each of which names its agent.

`run` executes a list of actions. `Along step C as s` says that each of the actions,
executed from `s`, meets the condition `C` in the state that it is taken in.
`run_invariant` is the one induction over runs that the analyses use; an invariant
that holds without a condition uses `reach_invariant`.
-/

set_option autoImplicit false

namespace MmapShield.Computation

variable {σ α : Type*}

/-- Executes the actions in order; `none` as soon as one of them is not enabled. -/
def run (step : α → σ → Option σ) : List α → σ → Option σ
  | [], s => some s
  | a :: as, s => (step a s).bind (run step as)

/-- Every action of the run from `s` meets `C` in the state that it is taken in. -/
def Along (step : α → σ → Option σ) (C : α → σ → Prop) : List α → σ → Prop
  | [], _ => True
  | a :: as, s => C a s ∧ ∀ t, step a s = some t → Along step C as t

variable {step : α → σ → Option σ} {C D : α → σ → Prop} {s t : σ}

/-- INTERNAL: a run of a nonempty list is a first step and a run of the rest. -/
theorem run_cons (a : α) (as : List α) :
    run step (a :: as) s = some t ↔ ∃ u, step a s = some u ∧ run step as u = some t := by
  simp only [run, Option.bind_eq_some_iff]

/-- INTERNAL: runs compose. -/
theorem run_append (as bs : List α) :
    run step (as ++ bs) s = some t ↔ ∃ u, run step as s = some u ∧ run step bs u = some t := by
  induction as generalizing s with
  | nil => simp [run]
  | cons a as ih =>
      rw [List.cons_append, run_cons]
      simp only [ih, run_cons]
      constructor
      · rintro ⟨v, hv, u, hu, ht⟩
        exact ⟨u, ⟨v, hv, hu⟩, ht⟩
      · rintro ⟨u, ⟨v, hv, hu⟩, ht⟩
        exact ⟨v, hv, u, hu, ht⟩

/-- INTERNAL: **the invariant rule.** A property of the first state that every step
meeting the condition preserves holds at the end of every run that meets it. -/
theorem run_invariant (I : σ → Prop)
    (hstep : ∀ a s t, C a s → I s → step a s = some t → I t)
    (as : List α) (hs : I s) (hC : Along step C as s) (h : run step as s = some t) : I t := by
  induction as generalizing s with
  | nil =>
      simp only [run, Option.some.injEq] at h
      exact h ▸ hs
  | cons a as ih =>
      obtain ⟨u, hu, hrest⟩ := (run_cons a as).mp h
      exact ih (hstep a s u hC.1 hs hu) (hC.2 u hu) hrest

/-- INTERNAL: a condition that the actions meet in every state. -/
theorem along_of_forall {as : List α} (h : ∀ a ∈ as, ∀ s, C a s) : Along step C as s := by
  induction as generalizing s with
  | nil => trivial
  | cons a as ih =>
      refine ⟨h a List.mem_cons_self s, ?_⟩
      intro t _
      exact ih fun b hb => h b (List.mem_cons_of_mem a hb)

/-- INTERNAL: the invariant rule for runs without a condition. -/
theorem reach_invariant (I : σ → Prop)
    (hstep : ∀ a s t, I s → step a s = some t → I t)
    (as : List α) (hs : I s) (h : run step as s = some t) : I t := by
  have halways : Along step (fun _ _ => True) as s := along_of_forall fun _ _ _ => trivial
  exact run_invariant I (fun a s t _ => hstep a s t) as hs halways h

/-- INTERNAL: a run that meets the condition, one step longer at its beginning. -/
theorem along_cons {a : α} {as : List α} (ha : C a s) (hstep : step a s = some t)
    (h : Along step C as t) : Along step C (a :: as) s := by
  refine ⟨ha, ?_⟩
  intro u hu
  rw [hstep] at hu
  cases hu
  exact h

/-- INTERNAL: a condition on a run in two parts. -/
theorem along_append {as bs : List α} :
    Along step C (as ++ bs) s ↔
      Along step C as s ∧ ∀ t, run step as s = some t → Along step C bs t := by
  induction as generalizing s with
  | nil => simp [Along, run]
  | cons a as ih =>
      simp only [List.cons_append, Along, ih, run_cons]
      refine ⟨?_, ?_⟩
      · rintro ⟨ha, h⟩
        refine ⟨⟨ha, fun t ht => (h t ht).1⟩, ?_⟩
        rintro t ⟨u, hu, ht⟩
        exact (h u hu).2 t ht
      · rintro ⟨⟨ha, h⟩, hrest⟩
        exact ⟨ha, fun u hu => ⟨h u hu, fun t ht => hrest t ⟨u, hu, ht⟩⟩⟩

/-- INTERNAL: what `Along` says about one step of a run. -/
theorem Along.at_step {as bs : List α} {a : α} (h : Along step C (as ++ a :: bs) s)
    (hrun : run step as s = some t) : C a t :=
  ((along_append.mp h).2 t hrun).1

/-- INTERNAL: two conditions that agree in every state satisfying an invariant are met
by the same runs. -/
theorem along_congr (I : σ → Prop)
    (hstep : ∀ a s t, I s → step a s = some t → I t)
    (hCD : ∀ a s, I s → (C a s ↔ D a s)) (as : List α) (hs : I s) :
    Along step C as s ↔ Along step D as s := by
  induction as generalizing s with
  | nil => exact Iff.rfl
  | cons a as ih =>
      simp only [Along]
      exact and_congr (hCD a s hs) (forall_congr' fun t =>
        imp_congr_right fun ht => ih (hstep a s t hs ht))

/-- INTERNAL: a mark that a step sets exactly when it does not meet a condition says, at the
end of a run, whether all of its steps met it. -/
theorem run_mark (I : σ → Prop) (mark : σ → Prop)
    (hI : ∀ a s t, I s → step a s = some t → I t)
    (hstep : ∀ a s t, I s → step a s = some t → (mark t ↔ mark s ∨ ¬ C a s))
    (as : List α) (hs : I s) (h : run step as s = some t) :
    mark t ↔ mark s ∨ ¬ Along step C as s := by
  induction as generalizing s with
  | nil =>
      simp only [run, Option.some.injEq] at h
      simp [h, Along]
  | cons a as ih =>
      obtain ⟨u, hu, hrest⟩ := (run_cons a as).mp h
      have hfirst : (∀ v, step a s = some v → Along step C as v) ↔ Along step C as u := by
        simp [hu]
      rw [ih (hI a s u hs hu) hrest, hstep a s u hs hu, Along, hfirst]
      tauto

/-- INTERNAL: **a property holds all along a run exactly when every step meets the condition**
that a step needs to keep it. -/
theorem always_iff_along (I P : σ → Prop)
    (hI : ∀ a s t, I s → step a s = some t → I t)
    (hstep : ∀ a s t, I s → P s → step a s = some t → (P t ↔ C a s))
    (as : List α) (hs : I s) (hP : P s) (h : run step as s = some t) :
    (∀ before, before <+: as → ∀ u, run step before s = some u → P u) ↔ Along step C as s := by
  induction as generalizing s with
  | nil =>
      refine ⟨fun _ => trivial, ?_⟩
      intro _ before hbefore u hu
      rw [List.prefix_nil.mp hbefore] at hu
      cases hu
      exact hP
  | cons a as ih =>
      obtain ⟨v, hv, hrest⟩ := (run_cons a as).mp h
      have hIv := hI a s v hs hv
      refine ⟨?_, ?_⟩
      · intro hall
        have hPv : P v := hall [a] ⟨as, rfl⟩ v ((run_cons a []).mpr ⟨v, hv, rfl⟩)
        refine ⟨(hstep a s v hs hP hv).mp hPv, ?_⟩
        intro w hw
        rw [hv] at hw
        cases hw
        refine (ih hIv hPv hrest).mp ?_
        intro before hbefore u hu
        exact hall (a :: before) (List.cons_prefix_cons.mpr ⟨rfl, hbefore⟩) u
          ((run_cons a before).mpr ⟨v, hv, hu⟩)
      · rintro ⟨hfirst, hnext⟩ before hbefore u hu
        have hPv : P v := (hstep a s v hs hP hv).mpr hfirst
        cases before with
        | nil =>
            cases hu
            exact hP
        | cons b before =>
            obtain ⟨rfl, hsub⟩ := List.cons_prefix_cons.mp hbefore
            obtain ⟨w, hw, hu'⟩ := (run_cons b before).mp hu
            rw [hv] at hw
            cases hw
            exact (ih hIv hPv hrest).mpr (hnext v hv) before hsub u hu'

/-- INTERNAL: **the rule of the last setting.** A bit that some actions set, some clear and the
others leave alone is set at the end of a run when an action of the run set it and none cleared it
since, or when it was set before and none cleared it. -/
theorem run_bit (I bit : σ → Prop) (sets clears : α → Prop)
    (hI : ∀ a s t, I s → step a s = some t → I t)
    (hbit : ∀ a s t, I s → step a s = some t → (bit t ↔ sets a ∨ bit s ∧ ¬ clears a))
    (as : List α) (hs : I s) (h : run step as s = some t) :
    bit t ↔ (bit s ∧ ∀ b ∈ as, ¬ clears b) ∨
      ∃ before a after, as = before ++ a :: after ∧ sets a ∧ ∀ b ∈ after, ¬ clears b := by
  induction as generalizing s with
  | nil =>
      simp only [run, Option.some.injEq] at h
      simp [h]
  | cons c as ih =>
      obtain ⟨u, hu, hrest⟩ := (run_cons c as).mp h
      rw [ih (hI c s u hs hu) hrest, hbit c s u hs hu]
      constructor
      · rintro (⟨hsets | ⟨hbefore, hkeeps⟩, hall⟩ | ⟨before, a, after, rfl, hsets, hall⟩)
        · exact Or.inr ⟨[], c, as, rfl, hsets, hall⟩
        · exact Or.inl ⟨hbefore, List.forall_mem_cons.mpr ⟨hkeeps, hall⟩⟩
        · exact Or.inr ⟨c :: before, a, after, rfl, hsets, hall⟩
      · rintro (⟨hbefore, hall⟩ | ⟨before, a, after, heq, hsets, hall⟩)
        · obtain ⟨hkeeps, hall⟩ := List.forall_mem_cons.mp hall
          exact Or.inl ⟨Or.inr ⟨hbefore, hkeeps⟩, hall⟩
        · cases before with
          | nil =>
              obtain ⟨rfl, rfl⟩ := List.cons.inj heq
              exact Or.inl ⟨Or.inl hsets, hall⟩
          | cons d before =>
              obtain ⟨-, rfl⟩ := List.cons.inj heq
              exact Or.inr ⟨before, a, after, rfl, hsets, hall⟩

end MmapShield.Computation
