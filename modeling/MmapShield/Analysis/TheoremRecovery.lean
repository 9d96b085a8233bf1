import MmapShield.Analysis.SignalInvariant
import Mathlib.Data.List.Count

/-!
# Recovery from a fault under concurrency

A touch of the mapping that a protected call is accessing raises SIGBUS. The five steps
that its thread then takes (the two tests of the handler, the load, the scan, the jump
and the end of `with_sigbus_protection`) lead to `Err` of the touched address, whatever
the other threads do in between, as long as no scan comes too late.

`Recovery` lists the stages, `Recovery.own` is one step of the thread itself,
`Recovery.other` one step of another thread, and `fault_recovery` follows a fault
through every continuation of every run.
-/

set_option autoImplicit false

namespace MmapShield.Analysis

open MmapShield.Computation MmapShield.Model

variable {ι : Type} [DecidableEq ι] {s s' : Process ι} {t : ι}

/-- The stages of a call over the mapping `m` whose closure faulted at `addr`, by the number
of steps that its thread has taken since; `calls` are the calls it had finished before. -/
def Recovery (m addr : ℕ) (calls : List CallRecord) : ℕ → Thread → Prop
  | 0, th => th.control = .protect m (.handler addr) ∧ th.faulted = some addr ∧ th.calls = calls
  | 1, th => th.control = .protect m (.load addr) ∧ th.faulted = some addr ∧ th.calls = calls
  | 2, th => (∃ snap loadedAt, th.control = .protect m (.scan addr snap loadedAt)) ∧
    th.faulted = some addr ∧ th.calls = calls
  | 3, th => th.control = .protect m (.siglongjmp addr) ∧ th.faulted = some addr ∧
    th.calls = calls
  | 4, th => th.control = .protect m (.leave true) ∧ th.faulted = some addr ∧ th.calls = calls
  | _ + 5, th =>
    calls ++ [{ map := m, faulted := some addr, result := .error addr }] <+: th.calls

/-- The number of steps that the thread `t` takes. -/
def ownSteps (t : ι) (acts : List (ι × Act)) : ℕ := acts.countP fun a => a.1 = t

/-- The state of a run in which every scan is in time. -/
structure Good (s : Process ι) : Prop where
  sound : Sound (View.of s)
  signals : Signals s

/-! ## What a step does to the threads -/

/-- INTERNAL: a step of `t` replaces the thread `t`, and its finished calls stay. -/
def Replaces (s : Process ι) (t : ι) (s' : Process ι) : Prop :=
  ∃ th, s'.threads = Function.update s.threads t th ∧ (s.threads t).calls <+: th.calls

/-- INTERNAL: a step that only moves its thread. -/
theorem replaces_control (c : Control)
    (h : s'.threads = Function.update s.threads t { s.threads t with control := c }) :
    Replaces s t s' := ⟨_, h, List.prefix_rfl⟩

/-- INTERNAL: a step that changes no thread. -/
theorem replaces_same (h : s'.threads = s.threads) : Replaces s t s' := by
  refine ⟨s.threads t, ?_, List.prefix_rfl⟩
  rw [h, Function.update_eq_self]

/-- INTERNAL: a step that replaces its thread and keeps the calls that it has made. -/
theorem replaces_setThread {s₁ : Process ι} (h : s₁.threads = s.threads) (th : Thread)
    (hcalls : (s.threads t).calls <+: th.calls) : Replaces s t (s₁.setThread t th) := by
  refine ⟨th, ?_, hcalls⟩
  show Function.update s₁.threads t th = _
  rw [h]

/-- INTERNAL: a step of `register` or `unregister` changes its own thread only. -/
theorem stepMutation_replaces {m : ℕ} {op : Mutation} {pc : MutationPc}
    (h : s.stepMutation t m op pc = some s') : Replaces s t s' := by
  cases pc with
  | lock =>
    simp only [Process.stepMutation] at h
    split at h
    · cases h
      exact replaces_control _ rfl
    · cases h
  | rotate =>
    cases h
    exact replaces_control _ rfl
  | load =>
    cases h
    exact replaces_control _ rfl
  | edit old =>
    simp only [Process.stepMutation] at h
    split at h
    · cases h
      exact replaces_control _ rfl
    · cases h
      exact replaces_control _ rfl
  | swap regions =>
    cases h
    exact replaces_control _ rfl
  | unlock =>
    cases op <;> cases h
    · exact replaces_control _ rfl
    · exact replaces_control _ rfl

/-- INTERNAL: so does a step of a protected call. -/
theorem stepProtect_replaces {m : ℕ} {pc : ProtectPc} (h : s.stepProtect t m pc = some s') :
    Replaces s t s' := by
  have hthreads (f : ThreadState → ThreadState) : (s.setState t f).threads = s.threads :=
    (setState_specific s t f).2.2.1
  have hgoto (f : ThreadState → ThreadState) (c : Control) :
      Replaces s t ((s.setState t f).goto t c) := by
    rw [goto_setState]
    exact replaces_setThread (hthreads f) _ List.prefix_rfl
  cases pc with
  | enter =>
    cases h
    exact hgoto _ _
  | sigsetjmp =>
    cases h
    exact hgoto _ _
  | closure => cases h
  | handler addr =>
    simp only [Process.stepProtect] at h
    split at h
    · cases h
      exact replaces_control _ rfl
    · cases h
      exact replaces_same rfl
  | load addr =>
    cases h
    exact replaces_control _ rfl
  | scan addr snap loadedAt => cases h
  | siglongjmp addr =>
    cases h
    simp only [Process.siglongjmp]
    split
    · exact hgoto _ _
    · exact replaces_same (hthreads _)
  | leave jumpResult =>
    cases h
    exact replaces_setThread (hthreads _) _ (List.prefix_append _ _)

/-- INTERNAL: **a thread is changed by its own steps only**, and never forgets a call. -/
theorem step_replaces [Fintype ι] {page : Usize} {act : Act}
    (h : Process.step page (t, act) s = some s') : Replaces s t s' := by
  unfold Process.step at h
  split at h
  · cases h
  · unfold Process.stepThread at h
    dsimp only at h
    split at h
    · split at h
      · cases h
        exact replaces_same rfl
      · split at h
        · cases h
          exact replaces_control _ rfl
        · cases h
    · split at h
      · split at h
        · cases h
          exact replaces_control _ rfl
        · cases h
      · cases h
    · split at h
      · cases h
        refine replaces_setThread ?_ _ List.prefix_rfl
        unfold Process.getOrInit
        cases s.specific t <;> rfl
      · cases h
    · split at h
      · cases h
        simp only [Process.raise]
        split
        · exact ⟨_, rfl, List.prefix_rfl⟩
        · exact replaces_same rfl
      · cases h
        exact replaces_same rfl
    · cases h
      exact replaces_control _ rfl
    · split at h
      · cases h
        exact replaces_control _ rfl
      · cases h
        exact replaces_same rfl
    · exact stepMutation_replaces h
    · cases h
      exact replaces_control _ rfl
    · exact stepProtect_replaces h
    · cases h

/-! ## One step of a recovery -/

/-- INTERNAL: the range of a mapping never changes. -/
theorem View.Move.keeps_region {v v' : View ι} (h : Owned v) (hmove : v.Move t v') {m : ℕ}
    {x : Mapping} (hx : v.maps m = some x) : ∃ y, v'.maps m = some y ∧ y.region = x.region := by
  cases hmove with
  | map ptr len hc hlen hwrap hfree =>
    refine ⟨x, ?_, rfl⟩
    show Function.update v.maps v.nextMap _ m = some x
    rw [Function.update_of_ne (Nat.ne_of_lt (h.known m x hx).1)]
    exact hx
  | drop m' y hc hy hlive hfree => exact setPhase_region _ _ _ m x hx
  | skip m' op old hc he => exact setPhase_region _ _ _ m x hx
  | swap m' op regions hc => exact setPhase_region _ _ _ m x hx
  | opened m' ptr len hc => exact setPhase_region _ _ _ m x hx
  | munmap m' hc => exact setPhase_region _ _ _ m x hx
  | _ => exact ⟨x, hx, rfl⟩

/-- INTERNAL: a mapping that stays where it is keeps its addresses. -/
theorem has_of_region {x y : Mapping} {addr : ℕ} (h : y.region = x.region)
    (hx : x.has addr) : y.has addr := by
  have hstart : y.ptr = x.ptr := congrArg RegisteredRegion.start h
  have hstop : y.ptr + y.len = x.ptr + x.len := congrArg RegisteredRegion.stop h
  unfold Mapping.has at hx ⊢
  rw [hstop, hstart]
  exact hx

/-- INTERNAL: inside a protected call or its handler, and outside of the closure and of the
scan, a thread only takes the next step. -/
theorem step_next_of_protect [Fintype ι] {page : Usize} {act : Act} {m : ℕ} {pc : ProtectPc}
    (hc : s.control t = .protect m pc) (hclosure : pc ≠ .closure)
    (hscan : ∀ addr snap loadedAt, pc ≠ .scan addr snap loadedAt)
    (h : Process.step page (t, act) s = some s') :
    s.death = none ∧ s.stepProtect t m pc = some s' := by
  unfold Process.step at h
  split at h
  · cases h
  · rename_i halive
    refine ⟨halive, ?_⟩
    unfold Process.stepThread at h
    simp only [hc] at h
    cases act with
    | next => exact h
    | touch addr faults =>
      cases pc with
      | closure => exact absurd rfl hclosure
      | _ => cases h
    | finish =>
      cases pc with
      | closure => exact absurd rfl hclosure
      | _ => cases h
    | scan stale =>
      cases pc with
      | scan addr snap loadedAt => exact absurd rfl (hscan addr snap loadedAt)
      | _ => cases h
    | _ => cases h

/-- INTERNAL: at a scan, a thread only scans. -/
theorem step_scan_of_protect [Fintype ι] {page : Usize} {act : Act} {m addr loadedAt : ℕ}
    {snap : Option ℕ} (hc : s.control t = .protect m (.scan addr snap loadedAt))
    (h : Process.step page (t, act) s = some s') :
    ∃ stale, act = .scan stale ∧
      s' = if scanRegions (s.scanned snap stale) addr then
        s.goto t (.protect m (.siglongjmp addr)) else s.restoreDefaultAndReraise t addr := by
  unfold Process.step at h
  split at h
  · cases h
  · unfold Process.stepThread at h
    simp only [hc] at h
    cases act with
    | scan stale =>
      refine ⟨stale, rfl, ?_⟩
      simp only at h
      split at h
      · rename_i hfound
        rw [if_pos hfound]
        exact (Option.some.inj h).symm
      · rename_i hmiss
        rw [if_neg hmiss]
        exact (Option.some.inj h).symm
    | next => cases h
    | _ => cases h

/-- INTERNAL: a step of the thread itself takes a recovery to its next stage.
SOURCE: signal/handler.rs:30-62, signal/mod.rs:155-167 -/
theorem Recovery.own [Fintype ι] {page : Usize} {act : Act} {m addr : ℕ}
    {calls : List CallRecord} {k : ℕ} {x : Mapping} (h : Good s)
    (hrec : Recovery m addr calls k (s.threads t)) (hx : s.maps m = some x)
    (hhas : x.has addr) (hin : ScansInTime (t, act) s)
    (hstep : Process.step page (t, act) s = some s') :
    Recovery m addr calls (k + 1) (s'.threads t) := by
  have hstay (c : Control) : ((s.goto t c).threads t) = { s.threads t with control := c } := by
    simp [Process.goto, Process.setThread]
  rcases k with _ | _ | _ | _ | _ | j
  · obtain ⟨hc, hfault, hcalls⟩ := hrec
    obtain ⟨-, st, hst, hpc⟩ := h.signals.frames t m _ hc
    obtain ⟨-, hnext⟩ := step_next_of_protect hc (by simp) (by simp) hstep
    simp only [Process.stepProtect, hst, handlerAdmits] at hnext
    rw [if_pos hpc.1] at hnext
    cases hnext
    rw [hstay]
    exact ⟨rfl, hfault, hcalls⟩
  · obtain ⟨hc, hfault, hcalls⟩ := hrec
    obtain ⟨-, hnext⟩ := step_next_of_protect hc (by simp) (by simp) hstep
    cases hnext
    rw [hstay]
    exact ⟨⟨_, _, rfl⟩, hfault, hcalls⟩
  · obtain ⟨⟨snap, loadedAt, hc⟩, hfault, hcalls⟩ := hrec
    obtain ⟨stale, rfl, hs'⟩ := step_scan_of_protect hc hstep
    -- a scan that misses would show the address outside of the mapping
    have hfound : scanRegions (s.scanned snap stale) addr = true := by
      by_contra hmiss
      obtain ⟨y, hy, hout⟩ := scan_missed h.sound hc hin hmiss
      rw [hx] at hy
      cases hy
      exact hout hhas
    rw [if_pos hfound] at hs'
    rw [hs', hstay]
    exact ⟨rfl, hfault, hcalls⟩
  · obtain ⟨hc, hfault, hcalls⟩ := hrec
    obtain ⟨-, st, hst, hpc⟩ := h.signals.frames t m _ hc
    obtain ⟨-, hnext⟩ := step_next_of_protect hc (by simp) (by simp) hstep
    have hbuf : ((s.setState t fun st => handlerStores st addr).stateOf t).bind
        ThreadState.jmpBuf = some (s.threads t).frame := by
      rw [stateOf_setState_self, hst]
      exact hpc.2.1
    simp only [Process.stepProtect, Process.siglongjmp, if_pos hbuf, Option.some.injEq] at hnext
    rw [← hnext, goto_setState]
    simp only [Process.setThread, Function.update_self]
    exact ⟨rfl, hfault, hcalls⟩
  · obtain ⟨hc, hfault, hcalls⟩ := hrec
    obtain ⟨-, st, hst, hpc⟩ := h.signals.frames t m _ hc
    obtain ⟨-, hnext⟩ := step_next_of_protect hc (by simp) (by simp) hstep
    have haddr : st.faultAddr = addr := by
      have hboth : (s.threads t).faulted = some st.faultAddr := hpc
      rw [hfault] at hboth
      exact (Option.some.inj hboth).symm
    cases hnext
    simp only [Recovery, Process.leave, Process.setThread, Function.update_self,
      stateOf_setState_self, hst, hfault, hcalls]
    have hread : (Option.map ThreadState.leave (some st)).elim 0 ThreadState.faultAddr = addr :=
      haddr
    rw [hread]
    exact List.prefix_rfl
  · obtain ⟨th, hth, hcalls⟩ := step_replaces hstep
    have hnow : s'.threads t = th := by
      rw [hth, Function.update_self]
    rw [hnow]
    exact List.IsPrefix.trans hrec hcalls

/-- INTERNAL: before its last stage the thread of a recovery has a step to take. -/
theorem Recovery.enabled [Fintype ι] (page : Usize) {m addr : ℕ} {calls : List CallRecord}
    {k : ℕ} (hrec : Recovery m addr calls k (s.threads t)) (hk : k < 5)
    (halive : s.death = none) : ∃ act s', Process.step page (t, act) s = some s' := by
  have hnext (pc : ProtectPc) (hc : s.control t = .protect m pc) :
      Process.step page (t, .next) s = s.stepProtect t m pc := by
    simp only [Process.step, halive, Process.stepThread, hc]
  match k, hrec with
  | 0, ⟨hc, _⟩ =>
    refine ⟨.next, ?_⟩
    rw [hnext _ hc]
    simp only [Process.stepProtect]
    split
    · exact ⟨_, rfl⟩
    · exact ⟨_, rfl⟩
  | 1, ⟨hc, _⟩ => exact ⟨.next, _, hnext _ hc⟩
  | 2, ⟨⟨snap, loadedAt, hc⟩, _⟩ =>
    have hc' : s.control t = .protect m (.scan addr snap loadedAt) := hc
    refine ⟨.scan [], ?_⟩
    simp only [Process.step, halive, Process.stepThread, hc']
    split
    · exact ⟨_, rfl⟩
    · exact ⟨_, rfl⟩
  | 3, ⟨hc, _⟩ => exact ⟨.next, _, hnext _ hc⟩
  | 4, ⟨hc, _⟩ => exact ⟨.next, _, hnext _ hc⟩
  | j + 5, _ => omega

omit [DecidableEq ι] in
/-- INTERNAL: before its last stage the thread of a recovery has not raised the signal
again. -/
theorem Recovery.not_reraised {m addr : ℕ} {calls : List CallRecord} {k : ℕ} {x : Mapping}
    (h : Good s) (hrec : Recovery m addr calls k (s.threads t)) (hk : k < 5)
    (hx : s.maps m = some x) (hhas : x.has addr) (a : ℕ) : s.death ≠ some (.reraise t a) := by
  intro hdeath
  obtain ⟨u, a', m', snap, loadedAt, y, heq, hc', hy, hout⟩ := h.signals.death _ hdeath
  cases heq
  have hscan : (s.threads t).control = .protect m' (.scan a snap loadedAt) := hc'
  match k, hrec with
  | 0, ⟨hc, _⟩ =>
    rw [hc] at hscan
    cases hscan
  | 1, ⟨hc, _⟩ =>
    rw [hc] at hscan
    cases hscan
  | 2, ⟨⟨snap', loadedAt', hc⟩, _⟩ =>
    rw [hc] at hscan
    cases hscan
    rw [hx] at hy
    cases hy
    exact hout hhas
  | 3, ⟨hc, _⟩ =>
    rw [hc] at hscan
    cases hscan
  | 4, ⟨hc, _⟩ =>
    rw [hc] at hscan
    cases hscan
  | j + 5, _ => omega

/-! ## Runs -/

omit [DecidableEq ι] in
/-- INTERNAL: a step outside the scan is in time. -/
theorem scansInTime_of_not_scan {a : ι × Act} (h : ∀ stale, a.2 ≠ .scan stale) :
    ScansInTime a s := by
  intro stale m addr snap loadedAt hact
  exact absurd hact (h stale)

omit [DecidableEq ι] in
/-- INTERNAL: the invariant holds in a process without mappings. -/
theorem good_init : Good (Process.init ι) where
  sound := sound_init
  signals := {
    pointers := ⟨by rintro t p ⟨⟩, by rintro t u p ⟨⟩⟩
    frames := by rintro t m pc ⟨⟩
    records := by rintro t r ⟨⟩
    death := by rintro d ⟨⟩ }

/-- INTERNAL: **every step whose scan is in time keeps the invariant.** -/
theorem Good.step [Fintype ι] {page : Usize} (a : ι × Act) (s s' : Process ι)
    (hin : ScansInTime a s) (h : Good s) (hstep : Process.step page a s = some s') : Good s' :=
  ⟨h.sound.step a s s' hstep, h.signals.step h.sound a hin hstep⟩

/-- INTERNAL: **a recovery through every continuation**: a stage for each step of its own
thread, none for the steps of the others. -/
theorem Recovery.run [Fintype ι] {page : Usize} {m addr : ℕ} {calls : List CallRecord} {k : ℕ}
    {x : Mapping} (more : List (ι × Act)) (h : Good s)
    (hrec : Recovery m addr calls k (s.threads t)) (hx : s.maps m = some x)
    (hhas : x.has addr) (hin : Along (Process.step page) ScansInTime more s)
    (hrun : run (Process.step page) more s = some s') :
    Good s' ∧ Recovery m addr calls (k + ownSteps t more) (s'.threads t) ∧
      ∃ y, s'.maps m = some y ∧ y.has addr := by
  induction more generalizing s k x with
  | nil =>
    simp only [Computation.run, Option.some.injEq] at hrun
    subst hrun
    exact ⟨h, hrec, x, hx, hhas⟩
  | cons a more ih =>
    obtain ⟨u, act⟩ := a
    obtain ⟨s₁, hstep, hrest⟩ := (run_cons (u, act) more).mp hrun
    have hgood := h.step (u, act) s s₁ hin.1 hstep
    obtain ⟨y, hy, hregion⟩ := (step_move hstep).keeps_region h.sound.owned hx
    have hyhas := has_of_region hregion hhas
    by_cases hu : u = t
    · subst hu
      have hown := hrec.own h hx hhas hin.1 hstep
      have hcount : k + ownSteps u ((u, act) :: more) = k + 1 + ownSteps u more := by
        unfold ownSteps
        rw [List.countP_cons_of_pos (by simp)]
        omega
      rw [hcount]
      exact ih hgood hown hy hyhas (hin.2 s₁ hstep) hrest
    · obtain ⟨th, hth, -⟩ := step_replaces hstep
      have hsame : s₁.threads t = s.threads t := by
        rw [hth, Function.update_of_ne (Ne.symm hu)]
      have hcount : k + ownSteps t ((u, act) :: more) = k + ownSteps t more := by
        unfold ownSteps
        rw [List.countP_cons_of_neg (by simpa using hu)]
      rw [hcount]
      exact ih hgood (hsame ▸ hrec) hy hyhas (hin.2 s₁ hstep) hrest

/-- RESULT: **fault recovery under concurrency.** In every run whose scans are in time a
process dies only of a fault outside of the mapping that its thread was accessing, and a
finished call is `Err(a)` exactly when its own closure faulted at `a`. When a touch inside
the mapping faults, then through every continuation its thread does not raise the signal
again, has a step to take while the process lives, and after five of them that call has
returned `Err` of the touched address.
SOURCE: signal/mod.rs:101-167, signal/handler.rs:30-62, signal/registry.rs:75-153 -/
theorem fault_recovery [Fintype ι] (page : Usize) (acts : List (ι × Act)) (s : Process ι)
    (h : run (Process.step page) acts (Process.init ι) = some s)
    (hin : Along (Process.step page) ScansInTime acts (Process.init ι)) :
    DeathOk s ∧
    (∀ t, ∀ r ∈ (s.threads t).calls, r.result = outcome r.faulted) ∧
    ∀ t m x addr s₁, s.control t = .protect m .closure → s.maps m = some x → x.has addr →
      Process.step page (t, .touch addr true) s = some s₁ →
      ∀ more s₂, Along (Process.step page) ScansInTime more s₁ →
        run (Process.step page) more s₁ = some s₂ →
        Recovery m addr (s.threads t).calls (ownSteps t more) (s₂.threads t) ∧
        (ownSteps t more < 5 → ∀ a, s₂.death ≠ some (.reraise t a)) ∧
        (ownSteps t more < 5 → s₂.death = none →
          ∃ act s₃, Process.step page (t, act) s₂ = some s₃) := by
  have hgood : Good s := run_invariant Good Good.step acts good_init hin h
  refine ⟨hgood.signals.death, hgood.signals.records, ?_⟩
  intro t m x addr s₁ hc hx hhas htouch more s₂ hin₂ hrun
  have hscan : ScansInTime (t, .touch addr true) s := scansInTime_of_not_scan (by simp)
  have hgood₁ := hgood.step _ s s₁ hscan htouch
  obtain ⟨y, hy, hregion⟩ := (step_move htouch).keeps_region hgood.sound.owned hx
  have hinstalled := (hgood.signals.frames t m _ hc).1
  -- the touch interrupts the closure and starts the handler
  have hstart : Recovery m addr (s.threads t).calls 0 (s₁.threads t) := by
    have halive : s.death = none := by
      unfold Process.step at htouch
      split at htouch
      · cases htouch
      · assumption
    simp only [Process.step, halive, Process.stepThread, hc, if_true, Process.raise, hinstalled,
      Option.some.injEq] at htouch
    subst htouch
    simp [Recovery, Process.setThread]
  obtain ⟨hgood₂, hrec, z, hz, hzhas⟩ :=
    hstart.run more hgood₁ hy (has_of_region hregion hhas) hin₂ hrun
  rw [Nat.zero_add] at hrec
  refine ⟨hrec, ?_, ?_⟩
  · intro hk
    exact hrec.not_reraised hgood₂ hk hz hzhas
  · intro hk halive
    exact hrec.enabled page hk halive

/-- The run `inClosure`, a touch that faults and the run `recovers` are among those that
`fault_recovery` is about: the call returns `Err` of the touched address. -/
theorem fault_recovery_inClosure :
    ∃ s s₁ s₂, run (Process.step 4096) inClosure (Process.init (Fin 2)) = some s ∧
      Process.step 4096 (0, .touch 0x10004 true) s = some s₁ ∧
      run (Process.step 4096) (recovers ++ [(0, .scan []), (0, .next), (0, .next)]) s₁ =
        some s₂ ∧
      [{ map := 0, faulted := some 0x10004, result := .error 0x10004 }] <+:
        (s₂.threads 0).calls := by
  have hstart : (run (Process.step 4096) inClosure (Process.init (Fin 2))).map
      (fun s => (s.control 0, s.maps 0, (s.threads 0).calls.length)) =
      some (.protect 0 .closure, some ⟨0x10000, 4096, .live⟩, 0) := by
    decide
  have hmiddle : (run (Process.step 4096) (inClosure ++ [(0, .touch 0x10004 true)] ++ recovers)
      (Process.init (Fin 2))).map (fun s => (s.control 0, s.registry.rotations)) =
      some (.protect 0 (.scan 0x10004 (some 0) 1), 2) := by
    decide
  have hend : (run (Process.step 4096) (inClosure ++ [(0, .touch 0x10004 true)] ++ recovers ++
      [(0, .scan []), (0, .next), (0, .next)]) (Process.init (Fin 2))).isSome = true := by
    decide
  obtain ⟨s₂, hs₂⟩ := Option.isSome_iff_exists.mp hend
  obtain ⟨u, hu, hlast⟩ := (run_append _ _).mp hs₂
  obtain ⟨s₁, hs₁, hrecovers⟩ := (run_append _ _).mp hu
  obtain ⟨s, hs, htouch⟩ := (run_append _ _).mp hs₁
  simp only [run, Option.bind_fun_some] at htouch
  rw [hs] at hstart
  rw [hu] at hmiddle
  obtain ⟨hc, hx⟩ := Prod.mk.inj (Option.some.inj hstart)
  obtain ⟨hx, hcalls⟩ := Prod.mk.inj hx
  obtain ⟨huc, hrot⟩ := Prod.mk.inj (Option.some.inj hmiddle)
  -- the one scan of the run comes after one further rotation
  have hin : Along (Process.step 4096) ScansInTime inClosure (Process.init (Fin 2)) := by
    refine along_of_forall ?_
    intro a ha s
    refine scansInTime_of_not_scan ?_
    rintro stale heq
    simp [inClosure, openAt, List.replicate] at ha
    rcases ha with rfl | rfl | rfl | rfl <;> cases heq
  have hin₂ : Along (Process.step 4096) ScansInTime
      (recovers ++ [(0, .scan []), (0, .next), (0, .next)]) s₁ := by
    refine along_append.mpr ⟨along_of_forall ?_, ?_⟩
    · intro a ha s
      refine scansInTime_of_not_scan ?_
      rintro stale heq
      simp [recovers, openAt, List.replicate] at ha
      rcases ha with rfl | rfl | rfl <;> cases heq
    · intro v hv
      rw [hrecovers] at hv
      cases hv
      refine ⟨?_, fun w _ => ⟨scansInTime_of_not_scan (by simp), fun w' _ =>
        ⟨scansInTime_of_not_scan (by simp), fun _ _ => trivial⟩⟩⟩
      intro stale m addr snap loadedAt _ hcv
      rw [huc] at hcv
      cases hcv
      rw [hrot]
      decide
  obtain ⟨-, -, hrecovery⟩ := fault_recovery 4096 inClosure s hs hin
  have hrec := (hrecovery 0 0 _ 0x10004 s₁ hc hx (by decide) htouch _ s₂ hin₂
    ((run_append _ _).mpr ⟨u, hrecovers, hlast⟩)).1
  rw [List.length_eq_zero_iff.mp hcalls] at hrec
  exact ⟨s, s₁, s₂, hs, htouch, (run_append _ _).mpr ⟨u, hrecovers, hlast⟩, hrec⟩

/-- A handler that is overtaken by three mutations misses the live mapping of its own
thread, and the signal is raised again. -/
theorem reraise_overtaken :
    ¬ ∀ (acts : List (Fin 2 × Act)) (s : Process (Fin 2)),
      run (Process.step 4096) acts (Process.init (Fin 2)) = some s →
      ∀ t addr m pc x, s.death = some (.reraise t addr) → s.control t = .protect m pc →
        s.maps m = some x → x.phase = .live → ¬ x.has addr := by
  intro hall
  have hend : (run (Process.step 4096) (overtaken ++ [(0, .scan [])])
      (Process.init (Fin 2))).map (fun s => (s.control 0, s.maps 0)) =
      some (.protect 0 (.scan 0x10000 (some 0) 1), some ⟨0x10000, 4096, .live⟩) := by
    decide
  have hdeath : (run (Process.step 4096) (overtaken ++ [(0, .scan [])])
      (Process.init (Fin 2))).bind (fun s => s.death) = some (.reraise 0 0x10000) := rfl
  obtain ⟨s, hs, hat⟩ := Option.map_eq_some_iff.mp hend
  obtain ⟨hc, hx⟩ := Prod.mk.inj hat
  rw [hs] at hdeath
  exact hall _ s hs 0 0x10000 0 _ _ hdeath hc hx rfl (by decide)

end MmapShield.Analysis
