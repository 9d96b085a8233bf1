import MmapShield.Analysis.TheoremLocks
import MmapShield.Computation.Simulation

/-!
# Calls that leave no trace

An advisory lock only ever keeps others out: a call that is left out of a run is missed by none of
the others. So every run of opens and drops stays a run, with the same answers, when all steps of
some of its calls are struck out (`calls_erasable`), and when these calls have failed or their
mappings have been dropped, not even the table of the held locks shows that they were there.
-/

set_option autoImplicit false

namespace MmapShield.Analysis.Erasure

open MmapShield.Computation MmapShield.Model

variable {η : Type} [DecidableEq η] {options : η → SafeMmapOptions} {page : Usize}
  {s s' u : Locking η} {h : η} {keep : η → Bool}

/-- `u` is `s` without the calls that are not kept. -/
structure Without (keep : η → Bool) (s u : Locking η) : Prop where
  pc : ∀ k, keep k = true → u.pc k = s.pc k
  mapped : ∀ k, keep k = true → u.mapped k = s.mapped k
  held : u.held = s.held.restrict keep

/-- INTERNAL: a kept call moves on in both. -/
theorem Without.update (hw : Without keep s u) (c : HandlePc) {m m' : η → Bool}
    (hmapped : ∀ k, keep k = true → m' k = m k) {l l' : LockTable η FlockOp}
    (hheld : l' = l.restrict keep) :
    Without keep ⟨Function.update s.pc h c, l, m⟩ ⟨Function.update u.pc h c, l', m'⟩ where
  pc := by
    intro k hk
    by_cases hkh : k = h
    · subst hkh
      simp
    · simpa [hkh] using hw.pc k hk
  mapped := hmapped
  held := hheld

/-- INTERNAL: a handle that moves, in both runs. -/
theorem Without.goto (hw : Without keep s u) (c : HandlePc) :
    Without keep (s.goto h c) (u.goto h c) :=
  hw.update c hw.mapped hw.held

/-- INTERNAL: the region of a kept call changes in both. -/
theorem Without.remap (hw : Without keep s u) (b : Bool) (k : η) (hk : keep k = true) :
    Function.update u.mapped h b k = Function.update s.mapped h b k := by
  by_cases hkh : k = h
  · subst hkh
    simp
  · simpa [hkh] using hw.mapped k hk

/-- INTERNAL: **a step of a kept call** needs none of the others.
SOURCE: mmap/mod.rs:328-407, 1064-1068, sys/mmap.rs:580-589 -/
theorem Without.keep_step {act : LockAct} (hw : Without keep s u) (hh : keep h = true)
    (hstep : Locking.step options page (h, act) s = some s') :
    ∃ u', Locking.step options page (h, act) u = some u' ∧ Without keep s' u' := by
  have hpc := hw.pc h hh
  unfold Locking.step at hstep ⊢
  dsimp only at hstep ⊢
  rw [hpc]
  split at hstep
  · cases hstep
    exact ⟨_, rfl, hw.goto _⟩
  · cases hstep
    exact ⟨_, rfl, hw.goto _⟩
  · cases hstep
    exact ⟨_, rfl, hw.goto _⟩
  · rename_i answer fd hp
    unfold Locking.flockStep at hstep ⊢
    cases answer with
    | error e =>
        cases hstep
        exact ⟨_, rfl, hw.goto _⟩
    | ok v =>
        dsimp only at hstep ⊢
        split at hstep
        · rename_i hadmits
          cases hstep
          rw [hw.held, if_pos (LockTable.admits_restrict hadmits)]
          exact ⟨_, rfl, hw.update _ hw.mapped (LockTable.restrict_acquire hh).symm⟩
        · cases hstep
  · rename_i answer fd hp
    cases hstep
    refine ⟨_, rfl, ?_⟩
    unfold Locking.metadataStep
    cases answer with
    | error e => exact hw.goto _
    | ok fileLen =>
        dsimp only
        cases (options h).mapLen fileLen with
        | error e => exact hw.goto _
        | ok mapLen => exact hw.goto _
  · rename_i answer fd mapLen hp
    cases hstep
    refine ⟨_, rfl, ?_⟩
    unfold Locking.mapStep
    cases ((options h).mmapOptions mapLen fd).map page fun _ => answer with
    | error e => exact hw.goto _
    | ok raw => exact hw.update _ (hw.remap true) hw.held
  · cases hstep
    exact ⟨_, rfl, hw.goto _⟩
  · cases hstep
    exact ⟨_, rfl, hw.goto _⟩
  · cases hstep
    exact ⟨_, rfl, hw.update _ (hw.remap false) hw.held⟩
  · cases hstep
    refine ⟨_, rfl, hw.update _ hw.mapped ?_⟩
    rw [hw.held, LockTable.restrict_release]
  · cases hstep

/-- INTERNAL: a step of a call that is left out.
SOURCE: mmap/mod.rs:343, 397-405 -/
theorem Without.drop_step {act : LockAct} (hw : Without keep s u) (hh : keep h = false)
    (hstep : Locking.step options page (h, act) s = some s') : Without keep s' u := by
  have hmove := Locks.lock_move hstep
  have hne (k : η) (hk : keep k = true) : k ≠ h := by
    rintro rfl
    rw [hh] at hk
    cases hk
  refine ⟨?_, ?_, ?_⟩
  · intro k hk
    rw [(hmove.others (hne k hk)).1]
    exact hw.pc k hk
  · intro k hk
    rw [(hmove.others (hne k hk)).2]
    exact hw.mapped k hk
  · rw [hw.held, ← LockTable.restrict_release_self hh, ← hmove.locks,
      LockTable.restrict_release_self hh]

/-- RESULT: **calls can be struck out of a run.** Take any run of any number of opens and drops of
one file, with any answers of the operating system, and strike out all steps of some of the calls.
What is left is a run, in which every other call is where it was, with the same mapping or the same
error, and holds the lock that it held. When the calls that were struck out have failed or their
mappings have been dropped, the table of the held locks is the same as a whole.
SOURCE: mmap/mod.rs:110-118, 328-407, 1064-1068, sys/mmap.rs:580-589 -/
theorem calls_erasable (options : η → SafeMmapOptions) (page : Usize) (keep : η → Bool)
    (acts : List (η × LockAct)) (s : Locking η)
    (hrun : run (Locking.step options page) acts (Locking.init η) = some s) :
    ∃ u, run (Locking.step options page) (acts.filter fun a => keep a.1) (Locking.init η) =
        some u ∧
      (∀ k, keep k = true → u.pc k = s.pc k ∧ u.mapped k = s.mapped k) ∧
      u.held = s.held.restrict keep ∧
      ((∀ k, keep k = false → Locks.isOver (s.pc k) = true) → u.held = s.held) := by
  have hkeep (a : η × LockAct) (s t u : Locking η) (ha : keep a.1 = true) (hw : Without keep s u)
      (hstep : Locking.step options page a s = some t) :
      ∃ v, Locking.step options page a u = some v ∧ Without keep t v := hw.keep_step ha hstep
  have hdrop (a : η × LockAct) (s t u : Locking η) (ha : keep a.1 = false) (hw : Without keep s u)
      (hstep : Locking.step options page a s = some t) : Without keep t u := hw.drop_step ha hstep
  have hstart : Without keep (Locking.init η) (Locking.init η) :=
    ⟨fun _ _ => rfl, fun _ _ => rfl, rfl⟩
  obtain ⟨u, hu, hw⟩ :=
    run_erases (Without keep) (fun a : η × LockAct => keep a.1) hkeep hdrop acts hstart hrun
  refine ⟨u, hu, fun k hk => ⟨hw.pc k hk, hw.mapped k hk⟩, hw.held, ?_⟩
  intro hover
  have hg : Locks.Guarded options s :=
    reach_invariant (Locks.Guarded options) Locks.Guarded.step acts (Locks.guarded_init options)
      hrun
  rw [hw.held]
  refine LockTable.restrict_eq ?_
  intro k hk
  apply hg.free
  have hend := hover k hk
  cases hpc : s.pc k with
  | failed error => rfl
  | dropped => rfl
  | _ =>
      rw [hpc] at hend
      cases hend

/-- `calls_erasable` is about calls that have held a lock: the third open of `threeOpens` takes its
lock, fails and is struck out, and the reader keeps its own. -/
theorem calls_erasable_beyond :
    ∃ s u, run (Locking.step Locks.threeOpens 4096) (Locks.opens 0 0x10000 ++ Locks.beyond)
        (Locking.init (Fin 3)) = some s ∧
      run (Locking.step Locks.threeOpens 4096)
        ((Locks.opens 0 0x10000 ++ Locks.beyond).filter fun a => a.1 != 2)
        (Locking.init (Fin 3)) = some u ∧
      u.held = s.held ∧ s.held = [(0, .lockSh)] := by
  obtain ⟨u, hu, -, -, hheld⟩ := calls_erasable Locks.threeOpens 4096 (fun k => k != 2)
    (Locks.opens 0 0x10000 ++ Locks.beyond) _ rfl
  refine ⟨_, u, rfl, hu, hheld ?_, rfl⟩
  intro k hk
  rw [bne_eq_false_iff_eq] at hk
  rw [hk]
  rfl

end MmapShield.Analysis.Erasure
