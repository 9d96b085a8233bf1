import MmapShield.Analysis.ProbeLoop
import MmapShield.Analysis.TheoremFrames
import MmapShield.Model.Charging

/-!
# Which mapping a fault is charged to

A fault is recovered by the innermost protected call, and its operation charges its own mapping.
That is the mapping that faulted exactly as far as each recovered fault is at an address of the
mapping of the innermost operation (`OwnFault`): a closure that uses a slice of another mapping
inside an operation on this one breaks it.

`Owned` is a fault at an address of a mapping. The invariant `Charged` says that every fault on
its way, in a call that was jumped to, pending in a worker, returned or recorded, is owned by
the mapping that it is held against.
-/

set_option autoImplicit false

namespace MmapShield.Analysis.Charging

open MmapShield.Computation MmapShield.Model

variable {ι τ : Type}

/-- The address is one of the mapping. -/
def InMapping (raw : RawMmap) (addr : Usize) : Prop :=
  raw.ptr.toNat ≤ addr.toNat ∧ addr.toNat < raw.ptr.toNat + raw.len.toNat

/-- A touch at the address faulted, and it is one of the mapping `m`. -/
def Owned (mmaps : ι → SafeMmap) (faults : List Usize) (m : ι) (addr : Usize) : Prop :=
  addr ∈ faults ∧ InMapping (mmaps m).raw addr

/-- INTERNAL: a fault that has happened stays one that has happened. -/
theorem Owned.append {mmaps : ι → SafeMmap} {faults : List Usize} {m : ι} {addr : Usize}
    (h : Owned mmaps faults m addr) (more : List Usize) : Owned mmaps (faults ++ more) m addr :=
  ⟨List.mem_append_left _ h.1, h.2⟩

/-! ## One thread -/

/-- The position of a probe is before the end of its range, which is inside the mapping. -/
def OpOk (mmaps : ι → SafeMmap) : Op ι → Prop
  | .probe m pos stop | .probePages m pos stop => pos < stop ∧ stop ≤ (mmaps m).raw.len
  | _ => True

/-- What a thread relies on: the fault that the call on top was jumped to for is owned by the
mapping of its operation. -/
structure ThreadOk (mmaps : ι → SafeMmap) (faults : List Usize) (th : CallStack (Op ι) Unit) :
    Prop where
  sound : Frames.Sound th
  ops : ∀ frame ∈ th.frames, OpOk mmaps frame.label
  blame : ∀ top rest, th.frames = top :: rest → top.pc = .leave true ∨ top.pc = .finish true →
    Owned mmaps faults top.label.mapping (UInt64.ofNat th.state.faultAddr)

/-- What a step of the stack needs: a call is one of an operation inside its range, and a
fault that is recovered is one of the mapping of the operation on top. -/
def ActOk (mmaps : ι → SafeMmap) (faults : List Usize) (th : CallStack (Op ι) Unit) :
    FrameAct (Op ι) Unit → Prop
  | .call op => OpOk mmaps op
  | .fault addr found => ∀ top rest, th.frames = top :: rest → th.state.inProtected = true →
    found = true → Owned mmaps faults top.label.mapping (UInt64.ofNat addr)
  | _ => True

section Thread

variable {mmaps : ι → SafeMmap} {faults : List Usize} {th th' : CallStack (Op ι) Unit}

/-- INTERNAL: a thread without a call has nothing to answer for. -/
theorem threadOk_idle (mmaps : ι → SafeMmap) (faults : List Usize) :
    ThreadOk mmaps faults (.idle .new 0) where
  sound := Frames.sound_idle _ _ rfl
  ops := by simp [CallStack.idle]
  blame := by simp [CallStack.idle]

/-- INTERNAL: a thread whose call on top was not jumped to. -/
theorem threadOk_of_top (hsound : Frames.Sound th)
    (hops : ∀ frame ∈ th.frames, OpOk mmaps frame.label)
    (hpc : ∀ top rest, th.frames = top :: rest → top.pc ≠ .leave true ∧ top.pc ≠ .finish true) :
    ThreadOk mmaps faults th where
  sound := hsound
  ops := hops
  blame := by
    intro top rest hf hjumped
    obtain ⟨hleave, hfinish⟩ := hpc top rest hf
    rcases hjumped with h | h
    · exact absurd h hleave
    · exact absurd h hfinish

/-- INTERNAL: further faults take nothing from what holds of a thread. -/
theorem ThreadOk.append (h : ThreadOk mmaps faults th) (more : List Usize) :
    ThreadOk mmaps (faults ++ more) th where
  sound := h.sound
  ops := h.ops
  blame := fun top rest hf hpc => (h.blame top rest hf hpc).append more

/-- INTERNAL: **a step of the stack keeps the thread right.**
SOURCE: signal/mod.rs:101-167, signal/handler.rs:30-62 -/
theorem ThreadOk.step (h : ThreadOk mmaps faults th) {act : FrameAct (Op ι) Unit}
    (hact : ActOk mmaps faults th act) (hstep : CallStack.step act th = some th') :
    ThreadOk mmaps faults th' := by
  have hsound := h.sound.step act th th' hstep
  have hops := h.ops
  -- the operations of the calls below, and of the one on top after a move of its own
  have hrest {top : Frame (Op ι) Unit} {rest : List (Frame (Op ι) Unit)}
      (hf : th.frames = top :: rest) : ∀ frame ∈ rest, OpOk mmaps frame.label := by
    intro frame hmem
    apply hops
    rw [hf]
    exact List.mem_cons_of_mem top hmem
  have htop {top top' : Frame (Op ι) Unit} {rest : List (Frame (Op ι) Unit)}
      (hf : th.frames = top :: rest) (hlabel : top'.label = top.label) :
      ∀ frame ∈ top' :: rest, OpOk mmaps frame.label := by
    intro frame hmem
    rcases List.mem_cons.mp hmem with rfl | hold
    · rw [hlabel]
      apply hops
      rw [hf]
      exact List.mem_cons_self
    · exact hrest hf frame hold
  cases (Frames.step_move hstep).2 with
  | call op hcode =>
    apply threadOk_of_top hsound
    · intro frame hmem
      rcases List.mem_cons.mp hmem with rfl | hold
      · exact hact
      · exact hops frame hold
    · intro top rest hf
      cases hf
      simp
  | enter hf hpc | sigsetjmp hf hpc | trampoline hf hpc _ | ret _ hf hpc =>
    apply threadOk_of_top hsound (htop hf rfl)
    intro top rest hf'
    cases hf'
    simp
  | touch _ hf hpc => exact h
  | reraise _ _ hf hpc _ | consumed hf hpc _ | missing hf hpc _ =>
    exact ⟨hsound, hops, h.blame⟩
  | @failed top rest hf hpc | @succeeded top rest _ hf hpc _ =>
    apply threadOk_of_top hsound (hrest hf)
    intro outer below hf'
    have hclosure : outer.pc = .closure := by
      apply h.sound.below
      rw [hf]
      change outer ∈ rest
      rw [show rest = outer :: below from hf']
      exact List.mem_cons_self
    rw [hclosure]
    simp
  | @leave top rest jumpResult hf hpc =>
    refine ⟨hsound, htop hf rfl, ?_⟩
    intro top' rest' hf' hjumped
    cases hf'
    cases jumpResult with
    | false => simp at hjumped
    | true => exact h.blame top rest hf (Or.inl hpc)
  | wild _ hf hpc hin hto =>
    obtain ⟨-, hunwind⟩ := h.sound.unwind_top hf hpc hin
    rw [hto] at hunwind
    cases hunwind
  | @jump addr top target rest below hf hpc hin hto =>
    obtain ⟨-, hunwind⟩ := h.sound.unwind_top hf hpc hin
    rw [hto] at hunwind
    cases hunwind
    refine ⟨hsound, htop hf rfl, ?_⟩
    intro top' rest' hf' _
    cases hf'
    exact hact top rest hf hin rfl

/-- INTERNAL: what the call on top returns to its operation.
SOURCE: signal/mod.rs:155-166 -/
theorem ThreadOk.returning {op : Op ι} {result : Except ℕ Unit}
    (h : ThreadOk mmaps faults th)
    (hret : Charging.returning th = some (op, result)) :
    OpOk mmaps op ∧ ∀ addr, result = .error addr →
      Owned mmaps faults op.mapping (UInt64.ofNat addr) := by
  unfold Charging.returning at hret
  cases hf : th.frames with
  | nil => simp [hf] at hret
  | cons top rest =>
    have hop := h.ops top (by rw [hf]; exact List.mem_cons_self)
    simp only [hf] at hret
    split at hret
    · rename_i hpc
      cases hret
      refine ⟨hop, ?_⟩
      intro addr haddr
      cases haddr
      exact h.blame top rest hf (Or.inr hpc)
    · obtain ⟨v, -, hv⟩ := Option.map_eq_some_iff.mp hret
      cases hv
      exact ⟨hop, by simp⟩
    · cases hret

end Thread

/-! ## All threads and mappings -/

/-- No fault was recorded for the mapping since it was opened or reset. -/
def Unmarked (mmap : SafeMmap) : Prop := mmap.poisoned = false ∧ mmap.sigbusCount = 0

/-- The invariant, for mappings that started as `mmaps`. -/
structure Charged (mmaps : ι → SafeMmap) (s : Model.Charging ι τ) : Prop where
  raw : ∀ m, (s.mmaps m).raw = (mmaps m).raw
  threads : ∀ t, ThreadOk mmaps s.faults (s.threads t)
  pending : ∀ m addr, (m, addr) ∈ s.pending → Owned mmaps s.faults m addr
  returned : ∀ m addr, (m, AccessError.sigbus addr) ∈ s.returned → Owned mmaps s.faults m addr
  charges : ∀ m e, (m, e) ∈ s.charges → ∃ addr, e = .sigbus addr ∧ Owned mmaps s.faults m addr
  unmarked : ∀ m, Unmarked (mmaps m) → (∀ e, (m, e) ∉ s.charges) → Unmarked (s.mmaps m)

/-- INTERNAL: the invariant holds before the first call. -/
theorem charged_start (mmaps : ι → SafeMmap) :
    Charged mmaps (.start mmaps : Model.Charging ι τ) where
  raw := fun _ => rfl
  threads := fun _ => threadOk_idle mmaps []
  pending := by simp [Charging.start]
  returned := by simp [Charging.start]
  charges := by simp [Charging.start]
  unmarked := fun _ h _ => h

section Effects

variable {mmaps : ι → SafeMmap} {s s' : Model.Charging ι τ}

/-- INTERNAL: one thread changes, and stays right. -/
theorem Charged.setThread [DecidableEq τ] (h : Charged mmaps s) (t : τ) {th : CallStack (Op ι) Unit}
    (hth : ThreadOk mmaps s.faults th) :
    Charged mmaps { s with threads := Function.update s.threads t th } := by
  refine { h with threads := ?_ }
  intro t'
  by_cases heq : t' = t
  · subst heq
    simpa using hth
  · simpa [heq] using h.threads t'

/-- INTERNAL: a step of the calls of one thread keeps the invariant, if it does what its call may
do. -/
theorem Charged.stack [DecidableEq τ] (h : Charged mmaps s) {t : τ}
    {act : FrameAct (Op ι) Unit} (hstep : s.stack t act = some s')
    (hact : ActOk mmaps s.faults (s.threads t) act) : Charged mmaps s' := by
  obtain ⟨th, hth, rfl⟩ := Option.map_eq_some_iff.mp hstep
  exact h.setThread t ((h.threads t).step hact hth)

/-- INTERNAL: an operation returns an error; a fault is one of its own mapping. -/
theorem Charged.report (h : Charged mmaps s) (m : ι) {e : AccessError}
    (he : ∀ addr, e = .sigbus addr → Owned mmaps s.faults m addr) :
    Charged mmaps (s.report m e) := by
  refine { h with returned := ?_ }
  intro m' addr hmem
  rcases List.mem_append.mp hmem with hold | hnew
  · exact h.returned m' addr hold
  · cases List.mem_singleton.mp hnew
    exact he addr rfl

/-- INTERNAL: **an operation records a fault of its own mapping.**
SOURCE: mmap/mod.rs:1039-1055 -/
theorem Charged.charge [DecidableEq ι] (h : Charged mmaps s) {m : ι} {addr : Usize}
    (hown : Owned mmaps s.faults m addr) : Charged mmaps (s.charge m (.sigbus addr)) := by
  have hraw : ((s.mmaps m).recordSigbusFrom (.sigbus addr)).1.raw = (s.mmaps m).raw := by
    simp only [SafeMmap.recordSigbusFrom]
    split <;> rfl
  refine ⟨?_, h.threads, h.pending, ?_, ?_, ?_⟩
  · intro m'
    by_cases heq : m' = m
    · subst heq
      simp [Charging.charge, hraw, h.raw]
    · simp [Charging.charge, heq, h.raw]
  · intro m' addr' hmem
    rcases List.mem_append.mp hmem with hold | hnew
    · exact h.returned m' addr' hold
    · cases List.mem_singleton.mp hnew
      exact hown
  · intro m' e hmem
    rcases List.mem_append.mp hmem with hold | hnew
    · exact h.charges m' e hold
    · cases List.mem_singleton.mp hnew
      exact ⟨addr, rfl, hown⟩
  · intro m' hclean hnone
    have hne : m' ≠ m := by
      rintro rfl
      exact hnone _ (List.mem_append_right _ (List.mem_singleton.mpr rfl))
    have hold := h.unmarked m' hclean fun e hmem => hnone e (List.mem_append_left _ hmem)
    simpa [Charging.charge, hne] using hold

/-- INTERNAL: a touch faults. -/
theorem Charged.faulted (h : Charged mmaps s) (addr : Usize) :
    Charged mmaps { s with faults := s.faults ++ [addr] } where
  raw := h.raw
  threads := fun t => (h.threads t).append [addr]
  pending := fun m a hmem => (h.pending m a hmem).append [addr]
  returned := fun m a hmem => (h.returned m a hmem).append [addr]
  charges := by
    intro m e hmem
    obtain ⟨a, he, hown⟩ := h.charges m e hmem
    exact ⟨a, he, hown.append [addr]⟩
  unmarked := h.unmarked

/-- INTERNAL: an error that is recorded is taken off the list. -/
theorem Charged.unpend [DecidableEq ι] (h : Charged mmaps s) (entry : ι × Usize) :
    Charged mmaps { s with pending := s.pending.erase entry } :=
  { h with pending := fun m addr hmem => h.pending m addr (List.mem_of_mem_erase hmem) }

/-- INTERNAL: the fault of a worker waits for the caller. -/
theorem Charged.pend (h : Charged mmaps s) {m : ι} {addr : Usize}
    (hown : Owned mmaps s.faults m addr) :
    Charged mmaps { s with pending := s.pending ++ [(m, addr)] } := by
  refine { h with pending := ?_ }
  intro m' addr' hmem
  rcases List.mem_append.mp hmem with hold | hnew
  · exact h.pending m' addr' hold
  · cases List.mem_singleton.mp hnew
    exact hown

/-- INTERNAL: `reset_poison` keeps the invariant.
SOURCE: mmap/mod.rs:1008-1011 -/
theorem Charged.resetPoison [DecidableEq ι] (h : Charged mmaps s) (m : ι) :
    Charged mmaps { s with mmaps := Function.update s.mmaps m (s.mmaps m).resetPoison } := by
  refine { h with raw := ?_, unmarked := ?_ }
  · intro m'
    by_cases heq : m' = m
    · subst heq
      simp [SafeMmap.resetPoison, h.raw]
    · simp [heq, h.raw]
  · intro m' hclean hnone
    by_cases heq : m' = m
    · subst heq
      simp [Unmarked, SafeMmap.resetPoison]
    · simpa [heq] using h.unmarked m' hclean hnone

/-- INTERNAL: a round of the worker inside the range keeps the invariant.
SOURCE: mmap/prefetch.rs:44-63 -/
theorem Charged.probePagesLoop [DecidableEq τ] (h : Charged mmaps s) {t : τ} {m : ι}
    {pos stop : Usize} (hstop : stop ≤ (mmaps m).raw.len)
    (hstep : s.probePagesLoop t m pos stop = some s') : Charged mmaps s' := by
  unfold Charging.probePagesLoop at hstep
  split at hstep
  · rename_i hlt
    exact h.stack hstep (And.intro hlt hstop)
  · cases hstep
    exact h

end Effects

/-! ## One step -/

section Steps

variable {mmaps : ι → SafeMmap} {s s' : Model.Charging ι τ}

/-- INTERNAL: no check of an operation fails with a fault.
SOURCE: mmap/mod.rs:1013-1037, mmap/guard.rs:99-108 -/
theorem checkCall_error {mmap : SafeMmap} {call : OpCall} {e : AccessError}
    (h : mmap.checkCall call = .error e) (addr : Usize) : e ≠ .sigbus addr := by
  have hpoisoned : mmap.checkPoisoned ≠ .error (.sigbus addr) := by
    unfold SafeMmap.checkPoisoned
    split <;> simp
  have hbounds (offset len : Usize) : mmap.checkBounds offset len ≠ .error (.sigbus addr) := by
    rw [checkBounds_eq]
    split <;> simp
  have hguard (offset len : Usize) : mmap.raw.checkGuard offset len ≠ .error (.sigbus addr) := by
    unfold RawMmap.checkGuard
    split <;> simp
  rintro rfl
  cases call with
  | read start stop =>
    rcases bind_eq_error.mp h with hfirst | ⟨-, -, hrest⟩
    · exact hpoisoned hfirst
    · exact hguard _ _ hrest
  | guardRead offset len => exact hguard offset len h
  | write offset len data =>
    rcases bind_eq_error.mp h with hfirst | ⟨-, -, hrest⟩
    · exact hpoisoned hfirst
    · rcases bind_eq_error.mp hrest with hsecond | ⟨-, -, hlast⟩
      · exact hbounds _ _ hsecond
      · split at hlast <;> simp at hlast
  | readInto offset len buf | probe offset len =>
    rcases bind_eq_error.mp h with hfirst | ⟨-, -, hrest⟩
    · exact hpoisoned hfirst
    · exact hbounds _ _ hrest

/-- INTERNAL: the range of a probe that passed the checks ends inside the mapping.
SOURCE: mmap/mod.rs:669-670, 772-773 -/
theorem checkCall_probe {mmap : SafeMmap} {offset len : Usize}
    (h : mmap.checkCall (.probe offset len) = .ok ()) : offset + len ≤ mmap.raw.len := by
  obtain ⟨-, -, hbounds⟩ := bind_eq_ok.mp h
  rw [checkBounds_eq] at hbounds
  split at hbounds
  · cases hbounds
  · rename_i hin
    apply add_le_of_fits
    rw [← RawMmap.exceeds_eq_false_iff, ← Bool.not_eq_true]
    exact hin

/-- INTERNAL: an operation is refused by one of its checks. -/
theorem Charged.refused (h : Charged mmaps s) {m : ι} {call : OpCall} {e : AccessError}
    (hcheck : (s.mmaps m).checkCall call = .error e) : Charged mmaps (s.report m e) := by
  apply h.report
  intro addr he
  exact absurd he (checkCall_error hcheck addr)

/-- INTERNAL: the end of a range that passed the checks of a probe. -/
theorem Charged.stop_le (h : Charged mmaps s) {m : ι} {offset len : Usize}
    (hcheck : (s.mmaps m).checkCall (.probe offset len) = .ok ()) :
    offset + len ≤ (mmaps m).raw.len := by
  rw [← h.raw]
  exact checkCall_probe hcheck

/-- INTERNAL: `registry::contains` finds an address of a live mapping.
SOURCE: signal/registry.rs:141-153 -/
theorem Charged.found (h : Charged mmaps s) {live : List ι} {addr : Usize}
    (hfound : s.found live addr = true) : ∃ m ∈ live, InMapping (mmaps m).raw addr := by
  obtain ⟨m, hm, hspan⟩ := List.any_eq_true.mp hfound
  rw [h.raw, inSpan, decide_eq_true_eq] at hspan
  exact ⟨m, hm, hspan⟩

/-- INTERNAL: a prefetch starts its worker.
SOURCE: mmap/mod.rs:772-776, mmap/prefetch.rs:105-108 -/
theorem Charged.prefetch [DecidableEq τ] (h : Charged mmaps s) {t : τ} {m : ι}
    {offset len : Usize} (hstep : s.prefetchStep t m offset len = some s') : Charged mmaps s' := by
  unfold Charging.prefetchStep at hstep
  split at hstep
  · cases hcheck : (s.mmaps m).checkCall (.probe offset len) with
    | error e =>
      simp only [hcheck, Option.some.injEq] at hstep
      rw [← hstep]
      exact h.refused hcheck
    | ok u =>
      simp only [hcheck] at hstep
      exact h.probePagesLoop (h.stop_le hcheck) hstep
  · cases hstep

variable [DecidableEq ι] [DecidableEq τ]

/-- INTERNAL: **the loop of `probe`**, whose check of one byte never fails.
SOURCE: mmap/mod.rs:676-683 -/
theorem Charged.probeLoop (h : Charged mmaps s) {t : τ} {m : ι} {pos stop : Usize}
    (hstop : stop ≤ (mmaps m).raw.len) (hstep : s.probeLoop t m pos stop = some s') :
    Charged mmaps s' := by
  unfold Charging.probeLoop at hstep
  split at hstep
  · rename_i hlt
    have hin : (s.mmaps m).raw.checkGuard pos 1 = .ok () := by
      rw [RawMmap.checkGuard, h.raw, RawMmap.exceeds_one hlt hstop]
      rfl
    simp only [hin] at hstep
    exact h.stack hstep (And.intro hlt hstop)
  · cases hstep
    exact h

/-- INTERNAL: an operation begins.
SOURCE: mmap/mod.rs:503-585, 668-686, 815-839, mmap/guard.rs:93-128 -/
theorem Charged.begin (h : Charged mmaps s) {t : τ} {m : ι} {call : OpCall}
    (hstep : s.beginStep t m call = some s') : Charged mmaps s' := by
  unfold Charging.beginStep at hstep
  split at hstep
  · cases hcheck : (s.mmaps m).checkCall call with
    | error e =>
      simp only [hcheck, Option.some.injEq] at hstep
      rw [← hstep]
      exact h.refused hcheck
    | ok u =>
      simp only [hcheck] at hstep
      cases call with
      | probe offset len =>
        exact h.probeLoop (h.stop_le hcheck) hstep
      | _ => exact h.stack hstep trivial
  · cases hstep

/-- INTERNAL: **an operation gets the result of its protected call.** A fault that it gets is one
of its own mapping.
SOURCE: mmap/guard.rs:117-127, mmap/mod.rs:513-517, 580-584, 678-683, 834-838,
mmap/prefetch.rs:57-63 -/
theorem Charged.resume (h : Charged mmaps s) {page : Usize} {t : τ} {op : Op ι}
    {result : Except ℕ Unit} (hop : OpOk mmaps op)
    (hown : ∀ addr, result = .error addr →
      Owned mmaps s.faults op.mapping (UInt64.ofNat addr))
    (hstep : s.resume page t op result = some s') : Charged mmaps s' := by
  cases result with
  | error addr =>
    have hfault := hown addr rfl
    cases op with
    | guardRead m =>
      cases hstep
      apply h.report
      intro addr' he
      cases he
      exact hfault
    | probePages m pos stop =>
      cases hstep
      exact h.pend hfault
    | _ =>
      cases hstep
      exact h.charge hfault
  | ok u =>
    cases op with
    | probe m pos stop => exact h.probeLoop hop.2 hstep
    | probePages m pos stop => exact h.probePagesLoop hop.2 hstep
    | _ =>
      cases hstep
      exact h

/-- INTERNAL: the next step of a thread keeps the invariant. -/
theorem Charged.next (h : Charged mmaps s) {page : Usize} {t : τ}
    (hstep : s.nextStep page t = some s') : Charged mmaps s' := by
  unfold Charging.nextStep at hstep
  cases hstack : s.stack t .next with
  | none => simp [hstack] at hstep
  | some u =>
    have hmoved := h.stack hstack trivial
    have hfaults : u.faults = s.faults := by
      obtain ⟨th, -, rfl⟩ := Option.map_eq_some_iff.mp hstack
      rfl
    simp only [hstack] at hstep
    cases hret : Charging.returning (s.threads t) with
    | none =>
      simp only [hret, Option.some.injEq] at hstep
      rw [← hstep]
      exact hmoved
    | some pair =>
      obtain ⟨op, result⟩ := pair
      obtain ⟨hop, hown⟩ := (h.threads t).returning hret
      simp only [hret] at hstep
      apply hmoved.resume hop _ hstep
      rw [hfaults]
      exact hown

end Steps

/-- What the code needs of a touch that faults inside of protected calls: its address is not one
of a live mapping other than that of the innermost operation. -/
def OwnMemory (live : List ι) : ChargeAct ι τ → Model.Charging ι τ → Prop
  | .fault t addr, s => ∀ top rest, (s.threads t).frames = top :: rest →
    (s.threads t).state.inProtected = true →
    ∀ m ∈ live, InMapping (s.mmaps m).raw addr → m = top.label.mapping
  | _, _ => True

section Runs

variable [DecidableEq τ] {mmaps : ι → SafeMmap} {s s' : Model.Charging ι τ}

/-- INTERNAL: **a touch faults**; the fault is recovered only if it is one of the mapping of the
operation on top.
SOURCE: signal/handler.rs:30-62 -/
theorem Charged.fault (h : Charged mmaps s) {live : List ι} {t : τ} {addr : Usize}
    (hown : OwnMemory live (.fault t addr) s)
    (hstep : s.touchStep live t addr true = some s') : Charged mmaps s' := by
  unfold Charging.touchStep at hstep
  split at hstep
  · cases hstep
  · split at hstep
    · apply (h.faulted addr).stack hstep
      intro top rest hf hin hfound
      obtain ⟨m, hm, hspan⟩ := h.found hfound
      have hmapping := hown top rest hf hin m hm (by rw [h.raw]; exact hspan)
      rw [UInt64.ofNat_toNat, ← hmapping]
      exact ⟨List.mem_append_right _ (List.mem_singleton.mpr rfl), hspan⟩
    · cases hstep

/-- INTERNAL: **every step keeps the invariant.** -/
theorem Charged.step [DecidableEq ι] {live : List ι} {page : Usize} (act : ChargeAct ι τ)
    (s s' : Model.Charging ι τ) (hown : OwnMemory live act s) (h : Charged mmaps s)
    (hstep : Charging.step live page act s = some s') : Charged mmaps s' := by
  cases act with
  | begin t m call => exact h.begin hstep
  | next t => exact h.next hstep
  | touch t addr =>
    simp only [Charging.step, Charging.touchStep] at hstep
    split at hstep
    · cases hstep
    · split at hstep
      · exact h.stack hstep trivial
      · cases hstep
  | fault t addr => exact h.fault hown hstep
  | ret t => exact h.stack hstep trivial
  | prefetch t m offset len => exact h.prefetch hstep
  | cancel t =>
    simp only [Charging.step, Charging.cancelStep] at hstep
    split at hstep
    · exact h.stack hstep trivial
    · cases hstep
  | collect m addr =>
    simp only [Charging.step] at hstep
    split at hstep
    · rename_i hmem
      cases hstep
      exact (h.unpend (m, addr)).charge (h.pending m addr hmem)
    · cases hstep
  | giveUp m addr =>
    simp only [Charging.step] at hstep
    split at hstep
    · cases hstep
      exact h.unpend (m, addr)
    · cases hstep
  | resetPoison m =>
    cases hstep
    exact h.resetPoison m

end Runs

/-- RESULT: **a fault is charged to the mapping that faulted as long as no operation on one
mapping faults on another.** In every run of operations on live mappings, by any number of
threads, with operations begun inside the closures of others, in which no touch that faults
inside of protected calls is at an address of a live mapping other than that of the innermost
operation: the address of each `Sigbus` that an operation on `m` returns is one of `m`, so is the
one of each fault that is recorded for `m`, and nothing else is ever recorded; a mapping that
starts unpoisoned and on which no touch has faulted is unpoisoned, with a counter of 0.
SOURCE: signal/handler.rs:44-61, mmap/mod.rs:503-585, 668-686, 766-787, 815-839, 1039-1055,
mmap/guard.rs:93-128 -/
theorem faults_charged_to_owner [DecidableEq ι] [DecidableEq τ] (live : List ι) (page : Usize)
    (mmaps : ι → SafeMmap) (acts : List (ChargeAct ι τ)) (s : Model.Charging ι τ)
    (hown : Along (Charging.step live page) (OwnMemory live) acts (.start mmaps))
    (h : run (Charging.step live page) acts (.start mmaps) = some s) :
    (∀ m addr, (m, .sigbus addr) ∈ s.returned → InMapping (s.mmaps m).raw addr) ∧
    (∀ m e, (m, e) ∈ s.charges → ∃ addr, e = .sigbus addr ∧ InMapping (s.mmaps m).raw addr) ∧
    ∀ m, Unmarked (mmaps m) → (∀ addr ∈ s.faults, ¬ InMapping (s.mmaps m).raw addr) →
      Unmarked (s.mmaps m) := by
  have hinv : Charged mmaps s :=
    run_invariant (Charged mmaps) Charged.step acts (charged_start mmaps) hown h
  refine ⟨?_, ?_, ?_⟩
  · intro m addr hmem
    rw [hinv.raw]
    exact (hinv.returned m addr hmem).2
  · intro m e hmem
    obtain ⟨addr, he, howned⟩ := hinv.charges m e hmem
    rw [hinv.raw]
    exact ⟨addr, he, howned.2⟩
  · intro m hclean hnofault
    apply hinv.unmarked m hclean
    intro e hmem
    obtain ⟨addr, -, hfault, hin⟩ := hinv.charges m e hmem
    rw [← hinv.raw] at hin
    exact hnofault addr hfault hin

/-- Two writable mappings of one page, which the first fault poisons. -/
def neighbours : Bool → SafeMmap
  | false => ⟨⟨0x10000, 0x1000, true⟩, 0, false, 1, false⟩
  | true => ⟨⟨0x20000, 0x1000, true⟩, 0, false, 1, false⟩

/-- `a.read(0..16, |s| b.write(0, s))` up to the copy. -/
def writeInsideRead : List (ChargeAct Bool Unit) :=
  [.begin () false (.read 0 16), .next (), .next (), .next (),
    .begin () true (.write 0 16 0x10000), .next (), .next (), .next ()]

/-- `b` is charged for a page of `a`, and poisoned, where the copy reads the slice of `a`.
SOURCE: signal/handler.rs:44-61, mmap/mod.rs:580-583 -/
theorem slice_fault_poisons_other :
    ∃ s, run (Charging.step [false, true] 4096)
        (writeInsideRead ++ [.fault () 0x10000, .next (), .next ()]) (.start neighbours) = some s ∧
      s.returned = [(true, .sigbus 0x10000)] ∧ s.charges = [(true, .sigbus 0x10000)] ∧
      ¬ InMapping (s.mmaps true).raw 0x10000 ∧
      (∀ addr ∈ s.faults, ¬ InMapping (s.mmaps true).raw addr) ∧
      Unmarked (neighbours true) ∧ (s.mmaps true).poisoned = true := by
  refine ⟨_, rfl, rfl, rfl, ?_, ?_, ⟨rfl, rfl⟩, rfl⟩
  · unfold InMapping
    decide
  · intro addr hmem
    rw [List.mem_singleton.mp hmem]
    unfold InMapping
    decide

/-- A fault of the page that the copy writes is charged to `b`, whose page it is.
SOURCE: mmap/mod.rs:556-585 -/
theorem faults_charged_to_owner_insideRead :
    ∃ s, run (Charging.step [false, true] 4096)
        (writeInsideRead ++ [.fault () 0x20000, .next (), .next ()]) (.start neighbours) = some s ∧
      s.charges = [(true, .sigbus 0x20000)] ∧ InMapping (s.mmaps true).raw 0x20000 ∧
      Unmarked (s.mmaps false) := by
  have hown : Along (Charging.step [false, true] 4096) (OwnMemory [false, true])
      (writeInsideRead ++ [.fault () 0x20000, .next (), .next ()]) (.start neighbours) := by
    rw [along_append]
    refine ⟨along_of_forall ?_, ?_⟩
    · intro act hmem s
      simp only [writeInsideRead, List.mem_cons, List.not_mem_nil, or_false] at hmem
      rcases hmem with rfl | rfl | rfl | rfl | rfl | rfl | rfl | rfl <;> exact trivial
    · intro s hs
      refine ⟨?_, fun _ _ => ⟨trivial, fun _ _ => ⟨trivial, fun _ _ => trivial⟩⟩⟩
      intro top rest hf hin m hm hspan
      cases hs
      cases hf
      cases m with
      | true => rfl
      | false =>
        revert hspan
        unfold InMapping
        decide
  refine ⟨_, rfl, rfl, ?_, ?_⟩
  · exact (faults_charged_to_owner _ _ _ _ _ hown rfl).1 true 0x20000 (List.mem_singleton.mpr rfl)
  · apply (faults_charged_to_owner _ _ _ _ _ hown rfl).2.2 false ⟨rfl, rfl⟩
    intro addr hmem
    rw [List.mem_singleton.mp hmem]
    unfold InMapping
    decide

end MmapShield.Analysis.Charging
