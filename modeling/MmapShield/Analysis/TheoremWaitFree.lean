import MmapShield.Analysis.TheoremLinear
import MmapShield.Computation.Measure

/-!
# Who waits in the registry

`contains` runs in the signal handler, which may interrupt any thread anywhere, also a thread that
holds the mutex of the registry. It takes no lock and has no loop, so it never waits
(`registry_progress`): in every reachable state every call of `contains` can take its next step,
and the only thread that cannot is one in front of the mutex while another thread, which can, holds
it. No call takes more than a fixed number of its own steps.
-/

set_option autoImplicit false

namespace MmapShield.Analysis.WaitFree

open MmapShield.Computation MmapShield.Model

variable {ι : Type} [DecidableEq ι] {s s' : Clients ι} {t : ι}

/-- The thread can take a step, whatever its scan reads. -/
def CanStep (s : Clients ι) (t : ι) : Prop := ∃ act s', Clients.step (t, act) s = some s'

/-- The number of steps that a mutation has yet to take, at most. -/
def mutationLeft : MutationPc → ℕ
  | .lock => 6
  | .rotate => 5
  | .load => 4
  | .edit _ => 3
  | .swap _ => 2
  | .unlock => 1

/-- The number of steps that a thread has yet to take in its call, at most. -/
def callLeft : ClientPc → ℕ
  | .idle => 0
  | .mutate _ pc => mutationLeft pc
  | .load _ => 3
  | .scan _ _ _ => 2
  | .ret _ _ => 1

/-- The number of steps that a call may take: six for a mutation, three for `contains`.
SOURCE: signal/registry.rs:75-153 -/
def allowance (t : ι) (a : ι × ClientAct) : ℕ :=
  if a.1 = t then
    match a.2 with
    | .call (.mutate _) => 6
    | .call (.contains _) => 3
    | _ => 0
  else 0

/-- An action is a step inside a call of the thread. -/
def ownStep (t : ι) (a : ι × ClientAct) : ℕ :=
  if a.1 = t then
    match a.2 with
    | .call _ => 0
    | _ => 1
  else 0

/-- INTERNAL: a step of another thread leaves the thread where it is. -/
theorem stay_of_ne {u : ι} {act : ClientAct} (h : Clients.step (u, act) s = some s') (hu : t ≠ u) :
    s'.pc t = s.pc t := by
  cases Linear.step_move h <;> exact Function.update_of_ne hu _ _

/-- INTERNAL: what a call may take pays for each of its steps.
SOURCE: signal/registry.rs:75-153 -/
theorem step_paid (t : ι) (a : ι × ClientAct) (s s' : Clients ι)
    (h : Clients.step a s = some s') :
    callLeft (s'.pc t) + ownStep t a ≤ callLeft (s.pc t) + allowance t a := by
  obtain ⟨u, act⟩ := a
  by_cases hu : u = t
  · subst hu
    cases Linear.step_move h with
    | call call hc =>
        cases call <;>
          simp [Clients.goto, RegistryCall.start, callLeft, mutationLeft, ownStep, allowance]
    | lock op hc hfree => simp [Clients.goto, hc, callLeft, mutationLeft, ownStep]
    | rotate op hc => simp [Clients.goto, hc, callLeft, mutationLeft, ownStep]
    | load op hc => simp [Clients.goto, hc, callLeft, mutationLeft, ownStep]
    | skip op old hc he => simp [Clients.goto, hc, callLeft, mutationLeft, ownStep, allowance]
    | edit op old regions hc he => simp [Clients.goto, hc, callLeft, mutationLeft, ownStep]
    | swap op regions hc => simp [Clients.goto, hc, callLeft, mutationLeft, ownStep]
    | unlock op hc => simp [Clients.goto, hc, callLeft, mutationLeft, ownStep]
    | look addr hc => simp [Clients.goto, hc, callLeft, ownStep]
    | scan addr snap loadedAt stale hc => simp [Clients.goto, hc, callLeft, ownStep]
    | ret addr found hc => simp [Clients.goto, hc, callLeft, ownStep]
  · rw [stay_of_ne h (Ne.symm hu)]
    simp [ownStep, allowance, hu]

/-- The mutex is held by a thread that is past its lock. -/
def HolderInside (s : Clients ι) : Prop :=
  ∀ t, s.mutex = some t → ∃ op pc, s.pc t = .mutate op pc ∧ pc.holds = true

/-- INTERNAL: a thread past its lock keeps the mutex until it unlocks.
SOURCE: signal/registry.rs:76, 98, 108, 127 -/
theorem HolderInside.step (a : ι × ClientAct) (s s' : Clients ι) (h : HolderInside s)
    (hstep : Clients.step a s = some s') : HolderInside s' := by
  obtain ⟨t, act⟩ := a
  -- the holder is another thread, or the one that moves
  have hmoved (c : ClientPc) (hc : s.mutex = some t → ∃ op pc, c = .mutate op pc ∧ pc.holds = true)
      (u : ι) (hu : s.mutex = some u) :
      ∃ op pc, Function.update s.pc t c u = .mutate op pc ∧ pc.holds = true := by
    by_cases hut : u = t
    · subst hut
      rw [Function.update_self]
      exact hc hu
    · rw [Function.update_of_ne hut]
      exact h u hu
  -- a thread outside the mutations does not hold it
  have houtside (hc : ∀ op pc, s.pc t ≠ .mutate op pc) (hu : s.mutex = some t) : False := by
    obtain ⟨op, pc, hpc, -⟩ := h t hu
    exact hc op pc hpc
  cases Linear.step_move hstep with
  | call call hc => exact hmoved _ fun hu => (houtside (by simp [hc]) hu).elim
  | lock op hc hfree =>
      intro u hu
      cases hu
      exact ⟨op, .rotate, Function.update_self .., rfl⟩
  | rotate op hc => exact hmoved _ fun _ => ⟨op, .load, rfl, rfl⟩
  | load op hc => exact hmoved _ fun _ => ⟨op, .edit _, rfl, rfl⟩
  | skip op old hc he => exact hmoved _ fun _ => ⟨op, .unlock, rfl, rfl⟩
  | edit op old regions hc he => exact hmoved _ fun _ => ⟨op, .swap regions, rfl, rfl⟩
  | swap op regions hc => exact hmoved _ fun _ => ⟨op, .unlock, rfl, rfl⟩
  | unlock op hc =>
      intro u hu
      cases hu
  | look addr hc => exact hmoved _ fun hu => (houtside (by simp [hc]) hu).elim
  | scan addr snap loadedAt stale hc => exact hmoved _ fun hu => (houtside (by simp [hc]) hu).elim
  | ret addr found hc => exact hmoved _ fun hu => (houtside (by simp [hc]) hu).elim

/-- INTERNAL: a thread that is inside a call and not in front of the mutex can step.
SOURCE: signal/registry.rs:75-153 -/
theorem canStep_of_inside (hidle : s.pc t ≠ .idle) (hlock : ∀ op, s.pc t ≠ .mutate op .lock) :
    CanStep s t := by
  cases hc : s.pc t with
  | idle => exact absurd hc hidle
  | mutate op pc =>
      refine ⟨.next, ?_⟩
      simp only [Clients.step, hc]
      cases pc with
      | lock => exact absurd hc (hlock op)
      | rotate => exact ⟨_, rfl⟩
      | load => exact ⟨_, rfl⟩
      | edit old =>
          simp only [Clients.stepMutation]
          cases op.edit (old.map s.registry.heap) with
          | none => exact ⟨_, rfl⟩
          | some regions => exact ⟨_, rfl⟩
      | swap regions => exact ⟨_, rfl⟩
      | unlock => exact ⟨_, rfl⟩
  | load addr =>
      refine ⟨.next, ?_⟩
      simp only [Clients.step, hc]
      exact ⟨_, rfl⟩
  | scan addr snap loadedAt =>
      refine ⟨.scan [], ?_⟩
      simp only [Clients.step, hc]
      exact ⟨_, rfl⟩
  | ret addr found =>
      refine ⟨.next, ?_⟩
      simp only [Clients.step, hc]
      exact ⟨_, rfl⟩

/-- RESULT: **only the mutex of the registry makes a thread wait.** In every run of any number of
threads that call `register`, `unregister` and `contains`: the steps that a thread takes in its
calls are at most six for each mutation that it has called and three for each `contains`; and in
every state a thread inside a call can take its next step, unless it is in front of the mutex and
another thread, which can take its next step, is past it. So no call of `contains` ever waits, not
even in a handler that interrupts the holder of the mutex, and the threads are never all stuck.
SOURCE: signal/registry.rs:75-153 -/
theorem registry_progress (acts : List (ι × ClientAct)) (s : Clients ι)
    (h : run Clients.step acts (Clients.init ι) = some s) (t : ι) :
    (acts.map (ownStep t)).sum + callLeft (s.pc t) ≤ (acts.map (allowance t)).sum ∧
    (s.pc t = .idle ∨ CanStep s t ∨
      ∃ op u, s.pc t = .mutate op .lock ∧ s.mutex = some u ∧ u ≠ t ∧ CanStep s u) := by
  refine ⟨?_, ?_⟩
  · have hpaid := run_potential (fun _ => True) (fun s : Clients ι => callLeft (s.pc t)) (ownStep t)
      (allowance t) (fun _ _ _ _ _ => trivial) (fun a s s' _ hstep => step_paid t a s s' hstep)
      acts trivial h
    simpa [Clients.init, callLeft] using hpaid
  · have hinside : HolderInside s := by
      refine reach_invariant HolderInside HolderInside.step acts ?_ h
      intro u hu
      cases hu
    by_cases hidle : s.pc t = .idle
    · exact Or.inl hidle
    · by_cases hlock : ∃ op, s.pc t = .mutate op .lock
      · obtain ⟨op, hop⟩ := hlock
        cases hmutex : s.mutex with
        | none =>
            refine Or.inr (Or.inl ⟨.next, ?_⟩)
            simp only [Clients.step, hop, Clients.stepMutation, hmutex]
            exact ⟨_, rfl⟩
        | some u =>
            obtain ⟨op', pc, hpc, hholds⟩ := hinside u hmutex
            refine Or.inr (Or.inr ⟨op, u, hop, rfl, ?_, canStep_of_inside (by simp [hpc]) ?_⟩)
            · rintro rfl
              rw [hop] at hpc
              cases hpc
              cases hholds
            · intro op'' hwaits
              rw [hpc] at hwaits
              cases hwaits
              cases hholds
      · exact Or.inr (Or.inl (canStep_of_inside hidle fun op hop => hlock ⟨op, hop⟩))

/-- A thread has the mutex, another one is in front of it, and a third one is in `contains`. -/
def oneWaits : List (ℕ × ClientAct) :=
  [(0, .call (.mutate (.register 0x1000 0x1000))), (0, .next),
    (1, .call (.mutate (.unregister 0x1000))), (2, .call (.contains 0x1800))]

/-- `registry_progress` is about threads that wait: after `oneWaits` the second thread cannot
step, and the other two can. -/
theorem registry_progress_oneWaits :
    ∃ s, run Clients.step oneWaits (Clients.init ℕ) = some s ∧ Clients.step (1, .next) s = none ∧
      (oneWaits.map (ownStep 0)).sum + callLeft (s.pc 0) ≤ (oneWaits.map (allowance 0)).sum ∧
      (s.pc 2 = .idle ∨ CanStep s 2 ∨
        ∃ op u, s.pc 2 = .mutate op .lock ∧ s.mutex = some u ∧ u ≠ 2 ∧ CanStep s u) := by
  have hend : (run Clients.step oneWaits (Clients.init ℕ)).map
      (fun s => (Clients.step (1, .next) s).isNone) = some true := rfl
  obtain ⟨s, hs, hstuck⟩ := Option.map_eq_some_iff.mp hend
  exact ⟨s, hs, Option.isNone_iff_eq_none.mp hstuck, (registry_progress oneWaits s hs 0).1,
    (registry_progress oneWaits s hs 2).2⟩

end MmapShield.Analysis.WaitFree
