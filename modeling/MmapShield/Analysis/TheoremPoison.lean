import MmapShield.Computation.Machine
import MmapShield.Model.Access

/-!
# The poison gate

One thread uses a mapping: it reads, writes, probes and prefetches, makes guards and
reads through them, and resets the poison. `Session.step` is one such operation as a
whole. `poison_gate_iff` says which runs respect the gate of a poisoned mapping: those
in which nobody reads through a guard while the mapping is poisoned. Every accessor of
`SafeMmap` starts with `check_poisoned`; `ReadGuard::read` has no access to the flag.
-/

set_option autoImplicit false

namespace MmapShield.Analysis

open MmapShield.Computation MmapShield.Model

variable {ρ : Type}

/-- The operation returns `Poisoned` and does nothing else: no byte is touched, no closure
of the caller runs, no event is emitted and the mapping is as before. -/
def Gated (page : Usize) (op : Access ρ) (s : Session) : Prop :=
  ∃ o, op.outcome page s = some o ∧ o.result = .error (.poisoned s.mmap.sigbusCount) ∧
    o.touched = [] ∧ o.closures = 0 ∧ o.events = [] ∧ o.mmap = s.mmap

/-- **The gate.** A poisoned mapping stays poisoned until it is reset, and every access to it
is refused. -/
def Gate (page : Usize) (op : Access ρ) (s : Session) : Prop :=
  s.mmap.poisoned = true →
    (op.resets = false → ∀ s', s.step page op = some s' → s'.mmap.poisoned = true) ∧
    (op.accesses = true → op.Possible s → Gated page op s)

/-- The operation does not read through a guard of a poisoned mapping. -/
def SparesGuards (op : Access ρ) (s : Session) : Prop :=
  ¬ (s.mmap.poisoned = true ∧ op.Reads s)

/-! ## The accessors -/

/-- INTERNAL: every accessor of the mapping itself asks the gate first.
SOURCE: mmap/mod.rs:503-839 -/
theorem gated_of_not_reads {page : Usize} {op : Access ρ} {s : Session}
    (hp : s.mmap.poisoned = true) (hop : op.accesses = true)
    (hreads : ∀ g mem offset len f, op ≠ .guardRead g mem offset len f) :
    Gated page op s := by
  have hgate := SafeMmap.checkPoisoned_poisoned hp
  cases op with
  | read mem start stop f =>
    refine ⟨_, rfl, ?_⟩
    simp [Outcome.forget, SafeMmap.read, hgate, SafeMmap.refuse, Except.map]
  | write mem offset data =>
    refine ⟨_, rfl, ?_⟩
    simp [SafeMmap.write, hgate, SafeMmap.refuse]
  | readInto mem offset buf =>
    refine ⟨_, rfl, ?_⟩
    simp [SafeMmap.readInto, hgate, SafeMmap.refuse]
  | probe mem fuel offset len =>
    have hprobe : s.mmap.probe page mem fuel offset len =
        some (s.mmap.refuse (.poisoned s.mmap.sigbusCount)) := by
      unfold SafeMmap.probe
      rw [hgate]
    exact ⟨_, hprobe, rfl, rfl, rfl, rfl, rfl⟩
  | prefetchWithTimeout offset len result touched =>
    refine ⟨_, rfl, ?_⟩
    simp [SafeMmap.prefetchWithTimeout, hgate, SafeMmap.refuse]
  | guard => cases hop
  | guardRead g mem offset len f => exact absurd rfl (hreads g mem offset len f)
  | resetPoison => cases hop

/-- INTERNAL: a read through a guard never returns `Poisoned`.
SOURCE: mmap/guard.rs:93-128 -/
theorem guardRead_not_poisoned (raw : RawMmap) (mem : Memory) (n : ℕ) (offset len : Usize)
    (f : Closure ρ) (count : UInt32) :
    (ReadGuard.read raw mem n offset len f).result ≠ .error (.poisoned count) := by
  unfold ReadGuard.read
  split
  · intro h
    cases h
  · dsimp only
    split
    · intro h
      cases h
    · intro h
      cases h

/-- INTERNAL: a step that leaves the mapping alone leaves it poisoned. -/
theorem poisoned_of_gated {page : Usize} {op : Access ρ} {s s' : Session}
    (hp : s.mmap.poisoned = true) (hgated : Gated page op s)
    (hstep : s.step page op = some s') : s'.mmap.poisoned = true := by
  obtain ⟨o, ho, -, -, -, -, hmmap⟩ := hgated
  unfold Session.step at hstep
  rw [ho] at hstep
  cases hstep
  show o.mmap.poisoned = true
  rw [hmmap]
  exact hp

/-- INTERNAL: the gate holds at one operation exactly when the operation spares the guards.
SOURCE: mmap/mod.rs:104-108, 503-839, mmap/guard.rs:93-128 -/
theorem gate_iff (page : Usize) (op : Access ρ) (s : Session) :
    Gate page op s ↔ SparesGuards op s := by
  by_cases hguard : ∃ g mem offset len f, op = .guardRead g mem offset len f
  · obtain ⟨g, mem, offset, len, f, rfl⟩ := hguard
    unfold Gate SparesGuards
    rw [not_and]
    refine imp_congr_right fun hp => ?_
    refine ⟨?_, ?_⟩
    · -- the read returns whatever the memory gives, and never `Poisoned`
      rintro ⟨-, hgated⟩ hreads
      have hlt : g < s.guards := hreads
      obtain ⟨o, ho, hresult, -⟩ := hgated rfl hlt
      simp only [Access.outcome, if_pos hlt, Option.some.injEq] at ho
      subst ho
      have hnot := guardRead_not_poisoned s.mmap.raw mem 0 offset len f s.mmap.sigbusCount
      cases hread : (ReadGuard.read s.mmap.raw mem 0 offset len f).result with
      | ok v =>
        simp only [hread] at hresult
        cases hresult
      | error e =>
        simp only [hread, Except.map] at hresult
        cases hresult
        exact hnot hread
    · intro hreads
      have hge : ¬ g < s.guards := hreads
      refine ⟨?_, fun _ hpossible => absurd hpossible hge⟩
      intro _ s' hstep
      simp [Session.step, Access.outcome, hge] at hstep
  · have hnot (g : ℕ) (mem : Memory) (offset len : Usize) (f : Closure ρ) :
        op ≠ .guardRead g mem offset len f := by
      rintro rfl
      exact hguard ⟨g, mem, offset, len, f, rfl⟩
    have hspares : SparesGuards op s := by
      rintro ⟨-, hreads⟩
      cases op with
      | guardRead g mem offset len f => exact hnot g mem offset len f rfl
      | _ => exact hreads
    refine ⟨fun _ => hspares, fun _ => ?_⟩
    intro hp
    refine ⟨?_, fun hop _ => gated_of_not_reads hp hop hnot⟩
    intro hreset s' hstep
    cases hop : op.accesses with
    | true => exact poisoned_of_gated hp (gated_of_not_reads hp hop hnot) hstep
    | false =>
      cases op with
      | guard =>
        cases hstep
        exact hp
      | resetPoison => cases hreset
      | _ => cases hop

/-- RESULT: **when the poison gate holds.** In a run of operations on one mapping every
access to the poisoned mapping is refused without any effect if and only if nobody reads
through a guard while the mapping is poisoned.
SOURCE: mmap/mod.rs:104-108, 503-839, 1008-1055, mmap/guard.rs:58-128 -/
theorem poison_gate_iff (page : Usize) (ops : List (Access ρ)) (s : Session) :
    Along (Session.step page) (Gate page) ops s ↔ Along (Session.step page) SparesGuards ops s :=
  along_congr (fun _ => True) (fun _ _ _ _ _ => trivial) (fun op s _ => gate_iff page op s) ops
    trivial

/-- A memory in which every touch faults, or none. -/
def uniform (faults : Bool) : Memory where
  bytes := fun _ => 0
  faults := fun _ _ => faults

/-- A page at `0x10000` that poisons at the first fault. -/
def onePage : SafeMmap :=
  SafeMmapOptions.finish { SafeMmapOptions.new with maxSigbus := 1 } ⟨0x10000, 4096, false⟩

/-- A guard is made, a read faults and poisons the mapping, and the guard is used again. -/
def guardOutlives : List (Access UInt8) :=
  [.guard, .read (uniform true) 0 1 SafeMmap.firstByte]

/-- The read through the guard of a poisoned mapping returns the byte. -/
theorem guardOutlives_passes :
    ¬ Along (Session.step 4096) (Gate 4096)
      (guardOutlives ++ [.guardRead 0 (uniform false) 0 1 SafeMmap.firstByte])
      ⟨onePage, 0⟩ := by
  intro h
  have hrun : run (Session.step 4096) guardOutlives ⟨onePage, 0⟩ =
      some ⟨{ onePage with sigbusCount := 1, poisoned := true }, 1⟩ := rfl
  obtain ⟨-, hgated⟩ := h.at_step hrun rfl
  obtain ⟨o, ho, hresult, -⟩ := hgated rfl Nat.zero_lt_one
  cases ho
  cases hresult

end MmapShield.Analysis
