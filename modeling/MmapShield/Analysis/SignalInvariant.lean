import MmapShield.Analysis.TheoremRegistry

/-!
# The signal layer of every thread

Every thread has its own `ThreadState`, reached through its own value of the thread key
(`Pointers`), and inside a protected call the state says how far the call is
(`FrameOk`): from `sigsetjmp` to the end of the handler the thread is in its protected
block and the jump buffer holds the checkpoint of the running call.

`Signals` puts these together with the records of the finished calls and with the way a
process may have died. `Signals.step` shows that every step keeps it, if its scan is in
time; the only fault that then ends a process is one outside of the mapping that its
thread is accessing.
-/

set_option autoImplicit false

namespace MmapShield.Analysis

open MmapShield.Computation MmapShield.Model

variable {ι : Type} [DecidableEq ι] {s s' : Process ι} {t : ι}

/-- The result of a call whose closure faulted, or did not. -/
def outcome : Option ℕ → Except ℕ Unit
  | none => .ok ()
  | some addr => .error addr

/-- The thread keys point to different boxes, all of them allocated.
SOURCE: signal/thread_state.rs:77-97 -/
structure Pointers (s : Process ι) : Prop where
  allocated : ∀ t p, s.specific t = some p → p < s.nextState
  injective : ∀ t u p, s.specific t = some p → s.specific u = some p → t = u

/-- What the thread state holds at each point of a protected call. -/
def PcOk (th : Thread) (st : ThreadState) : ProtectPc → Prop
  | .enter => th.faulted = none
  | .sigsetjmp => st.inProtected = true ∧ th.faulted = none
  | .closure => st.inProtected = true ∧ st.jmpBuf = some th.frame ∧ th.faulted = none
  | .handler addr | .load addr | .scan addr _ _ | .siglongjmp addr =>
    st.inProtected = true ∧ st.jmpBuf = some th.frame ∧ th.faulted = some addr
  | .leave jumpResult => th.faulted = if jumpResult then some st.faultAddr else none

/-- A thread inside a protected call has a thread state that fits. -/
def FrameOk (installed : Bool) (state : Option ThreadState) (th : Thread) : Prop :=
  ∀ m pc, th.control = .protect m pc → installed = true ∧ ∃ st, state = some st ∧ PcOk th st pc

/-- The process is alive, or the handler of a thread did not find an address outside of the
mapping that the thread was accessing. -/
def DeathOk (s : Process ι) : Prop :=
  ∀ d, s.death = some d → ∃ t addr m snap loadedAt x, d = .reraise t addr ∧
    s.control t = .protect m (.scan addr snap loadedAt) ∧ s.maps m = some x ∧ ¬ x.has addr

/-- The signal layer is in order. -/
structure Signals (s : Process ι) : Prop where
  pointers : Pointers s
  frames : ∀ t, FrameOk s.installed (s.stateOf t) (s.threads t)
  records : ∀ t, ∀ r ∈ (s.threads t).calls, r.result = outcome r.faulted
  death : DeathOk s

/-! ## The thread states -/

omit [DecidableEq ι] in
/-- INTERNAL: what the invariant reads is the values of the key and the next state. -/
theorem pointers_congr (h : Pointers s) (hspecific : s'.specific = s.specific)
    (hnext : s'.nextState = s.nextState) : Pointers s' := by
  refine ⟨?_, ?_⟩
  · intro t p hp
    rw [hnext]
    rw [hspecific] at hp
    exact h.allocated t p hp
  · intro t u p hp hq
    rw [hspecific] at hp hq
    exact h.injective t u p hp hq

omit [DecidableEq ι] in
/-- INTERNAL: a change of a state leaves the values of the key, and all but the states, alone. -/
theorem setState_specific (s : Process ι) (t : ι) (f : ThreadState → ThreadState) :
    (s.setState t f).specific = s.specific ∧ (s.setState t f).nextState = s.nextState ∧
      (s.setState t f).threads = s.threads ∧ (s.setState t f).installed = s.installed ∧
      (s.setState t f).death = s.death := by
  unfold Process.setState
  cases s.specific t <;> exact ⟨rfl, rfl, rfl, rfl, rfl⟩

omit [DecidableEq ι] in
/-- INTERNAL: a thread changes the state that its own key points to. -/
theorem stateOf_setState_self (s : Process ι) (t : ι) (f : ThreadState → ThreadState) :
    (s.setState t f).stateOf t = (s.stateOf t).map f := by
  unfold Process.stateOf Process.setState
  cases hp : s.specific t with
  | none => simp [hp]
  | some p => simp [hp]

omit [DecidableEq ι] in
/-- INTERNAL: and no other. -/
theorem stateOf_setState_of_ne (h : Pointers s) {u : ι} (hu : u ≠ t)
    (f : ThreadState → ThreadState) : (s.setState t f).stateOf u = s.stateOf u := by
  unfold Process.stateOf Process.setState
  cases hp : s.specific t with
  | none => rfl
  | some p =>
    cases hq : s.specific u with
    | none => simp
    | some q =>
      have hne : q ≠ p := by
        rintro rfl
        exact hu (h.injective u t q hq hp)
      simp [hne]

/-- INTERNAL: `get_or_init` allocates a state for a thread that has none.
SOURCE: signal/thread_state.rs:77-97 -/
theorem getOrInit_pointers (h : Pointers s) (t : ι) : Pointers (s.getOrInit t) := by
  unfold Process.getOrInit
  cases hp : s.specific t with
  | some p => exact h
  | none =>
    refine ⟨?_, ?_⟩
    · intro u p hu
      simp only [Function.update_apply] at hu ⊢
      split at hu
      · cases hu
        exact Nat.lt_succ_self _
      · exact Nat.lt_succ_of_lt (h.allocated u p hu)
    · intro u w p hu hw
      simp only [Function.update_apply] at hu hw
      split at hu <;> split at hw
      · rename_i h1 h2
        rw [h1, h2]
      · cases hu
        exact absurd (h.allocated w _ hw) (Nat.lt_irrefl _)
      · cases hw
        exact absurd (h.allocated u _ hu) (Nat.lt_irrefl _)
      · exact h.injective u w p hu hw

/-- INTERNAL: `get_or_init` gives a thread its state and touches that of no other.
SOURCE: signal/thread_state.rs:77-97 -/
theorem getOrInit_stateOf (h : Pointers s) (t : ι) :
    (∃ st, (s.getOrInit t).stateOf t = some st) ∧
      ∀ u, u ≠ t → (s.getOrInit t).stateOf u = s.stateOf u := by
  unfold Process.getOrInit Process.stateOf
  cases hp : s.specific t with
  | some p =>
    refine ⟨⟨s.states p, ?_⟩, fun u _ => rfl⟩
    simp only [hp]
    rfl
  | none =>
    refine ⟨⟨ThreadState.new, ?_⟩, ?_⟩
    · simp
    · intro u hu
      simp only [Function.update_of_ne hu]
      cases hq : s.specific u with
      | none => rfl
      | some q =>
        have hne : q ≠ s.nextState := Nat.ne_of_lt (h.allocated u q hq)
        simp [hne]

/-! ## One step -/

omit [DecidableEq ι] in
/-- INTERNAL: a step of `t` is in order as soon as it is for `t`: the other threads and
their states are as before. -/
theorem Signals.own (h : Signals s) (hpointers : Pointers s')
    (hothers : ∀ u, u ≠ t → s'.threads u = s.threads u ∧ s'.stateOf u = s.stateOf u)
    (hinstalled : s.installed = true → s'.installed = true)
    (hframe : FrameOk s'.installed (s'.stateOf t) (s'.threads t))
    (hcalls : ∀ r ∈ (s'.threads t).calls, r.result = outcome r.faulted)
    (hdeath : DeathOk s') : Signals s' := by
  refine ⟨hpointers, ?_, ?_, hdeath⟩
  · intro u
    by_cases hu : u = t
    · subst hu
      exact hframe
    · obtain ⟨hthread, hstate⟩ := hothers u hu
      rw [hthread, hstate]
      intro m pc hc
      obtain ⟨hi, hst⟩ := h.frames u m pc hc
      exact ⟨hinstalled hi, hst⟩
  · intro u
    by_cases hu : u = t
    · subst hu
      exact hcalls
    · rw [(hothers u hu).1]
      exact h.records u

omit [DecidableEq ι] in
/-- INTERNAL: nothing is asked of a process that is alive. -/
theorem deathOk_of_none (h : s.death = none) : DeathOk s := by
  intro d hd
  rw [h] at hd
  cases hd

/-- INTERNAL: a step of `t` that replaces its thread by `th` and may change its own thread
state by `f`, and whatever else there is outside of the signal layer. -/
theorem Signals.thread (h : Signals s) (f : ThreadState → ThreadState) (th : Thread)
    (hthreads : s'.threads = Function.update s.threads t th)
    (hspecific : s'.specific = s.specific) (hnext : s'.nextState = s.nextState)
    (hstates : s'.states = (s.setState t f).states)
    (hinstalled : s.installed = true → s'.installed = true)
    (hframe : ∀ m pc, th.control = .protect m pc → s'.installed = true ∧
      ∃ st, s.stateOf t = some st ∧ PcOk th (f st) pc)
    (hcalls : ∀ r ∈ th.calls, r.result = outcome r.faulted)
    (hdeath : DeathOk s') : Signals s' := by
  have hstateOf (u : ι) : s'.stateOf u = (s.setState t f).stateOf u := by
    unfold Process.stateOf
    rw [hspecific, hstates, (setState_specific s t f).1]
  refine h.own (t := t) (pointers_congr h.pointers hspecific hnext) ?_ hinstalled ?_ ?_ hdeath
  · intro u hu
    rw [hthreads, hstateOf u, Function.update_of_ne hu]
    exact ⟨rfl, stateOf_setState_of_ne h.pointers hu f⟩
  · rw [hthreads, Function.update_self, hstateOf t, stateOf_setState_self]
    intro m pc hc
    obtain ⟨hi, st, hst, hpc⟩ := hframe m pc hc
    refine ⟨hi, f st, ?_, hpc⟩
    rw [hst]
    rfl
  · rw [hthreads, Function.update_self]
    exact hcalls

omit [DecidableEq ι] in
/-- The identity on thread states changes none. -/
theorem setState_id (s : Process ι) (t : ι) : (s.setState t fun st => st).states = s.states := by
  unfold Process.setState
  cases s.specific t with
  | none => rfl
  | some p =>
    funext q
    by_cases hq : q = p
    · subst hq
      simp
    · simp [hq]

/-- INTERNAL: a step of `t` that only moves it, to a place outside of the signal layer. -/
theorem Signals.away (h : Signals s) (c : Control) (hc : ∀ m pc, c ≠ .protect m pc)
    (hthreads : s'.threads = Function.update s.threads t { s.threads t with control := c })
    (hspecific : s'.specific = s.specific) (hnext : s'.nextState = s.nextState)
    (hstates : s'.states = s.states) (hinstalled : s.installed = true → s'.installed = true)
    (hdeath : s'.death = none) : Signals s' := by
  refine h.thread (fun st => st) { s.threads t with control := c } hthreads hspecific hnext ?_
    hinstalled ?_ (h.records t) (deathOk_of_none hdeath)
  · rw [setState_id]
    exact hstates
  · intro m pc heq
    exact absurd heq (hc m pc)

/-- INTERNAL: a step of `register` or `unregister` leaves the signal layer alone.
SOURCE: signal/registry.rs:75-127 -/
theorem Signals.mutation (h : Signals s) {m : ℕ} {op : Mutation} {pc : MutationPc}
    (halive : s.death = none) (hstep : s.stepMutation t m op pc = some s') : Signals s' := by
  have haway (c : Control) (hc : ∀ m pc, c ≠ .protect m pc)
      (hthreads : s'.threads = Function.update s.threads t { s.threads t with control := c })
      (hspecific : s'.specific = s.specific) (hnext : s'.nextState = s.nextState)
      (hstates : s'.states = s.states) (hinstalled : s'.installed = s.installed)
      (hdeath : s'.death = s.death) : Signals s' :=
    h.away c hc hthreads hspecific hnext hstates (fun hi => hinstalled.trans hi)
      (hdeath.trans halive)
  cases pc with
  | lock =>
    simp only [Process.stepMutation] at hstep
    split at hstep
    · cases hstep
      exact haway (.mutate m op .rotate) (by simp) rfl rfl rfl rfl rfl rfl
    · cases hstep
  | rotate =>
    cases hstep
    exact haway (.mutate m op .load) (by simp) rfl rfl rfl rfl rfl rfl
  | load =>
    cases hstep
    exact haway (.mutate m op (.edit s.registry.published)) (by simp) rfl rfl rfl rfl rfl rfl
  | edit old =>
    simp only [Process.stepMutation] at hstep
    split at hstep
    · cases hstep
      exact haway (.mutate m op .unlock) (by simp) rfl rfl rfl rfl rfl rfl
    · rename_i regions he
      cases hstep
      exact haway (.mutate m op (.swap regions)) (by simp) rfl rfl rfl rfl rfl rfl
  | swap regions =>
    cases hstep
    exact haway (.mutate m op .unlock) (by simp) rfl rfl rfl rfl rfl rfl
  | unlock =>
    cases op with
    | register ptr len =>
      cases hstep
      exact haway .idle (by simp) rfl rfl rfl rfl rfl rfl
    | unregister ptr =>
      cases hstep
      exact haway (.munmap m) (by simp) rfl rfl rfl rfl rfl rfl

/-- INTERNAL: a step of `t` inside the signal layer. -/
theorem Signals.setState_setThread (h : Signals s) (halive : s.death = none)
    (f : ThreadState → ThreadState) (th : Thread)
    (hframe : ∀ m pc, th.control = .protect m pc → s.installed = true ∧
      ∃ st, s.stateOf t = some st ∧ PcOk th (f st) pc)
    (hcalls : ∀ r ∈ th.calls, r.result = outcome r.faulted) :
    Signals ((s.setState t f).setThread t th) := by
  obtain ⟨hspecific, hnext, hthreads, hinstalled, hdeath⟩ := setState_specific s t f
  refine h.thread f th ?_ hspecific hnext rfl ?_ ?_ hcalls (deathOk_of_none ?_)
  · show Function.update (s.setState t f).threads t th = _
    rw [hthreads]
  · intro hi
    exact hinstalled.trans hi
  · intro m pc hc
    obtain ⟨hi, hst⟩ := hframe m pc hc
    exact ⟨hinstalled.trans hi, hst⟩
  · exact hdeath.trans halive

/-- INTERNAL: a change of a state does not move the thread. -/
theorem goto_setState (s : Process ι) (t : ι) (f : ThreadState → ThreadState) (c : Control) :
    (s.setState t f).goto t c =
      (s.setState t f).setThread t { s.threads t with control := c } := by
  unfold Process.goto
  rw [(setState_specific s t f).2.2.1]

/-- INTERNAL: a step of `t` inside the signal layer that leaves its thread state alone. -/
theorem Signals.setThread (h : Signals s) (halive : s.death = none) (th : Thread)
    (hframe : ∀ m pc, th.control = .protect m pc → s.installed = true ∧
      ∃ st, s.stateOf t = some st ∧ PcOk th st pc)
    (hcalls : ∀ r ∈ th.calls, r.result = outcome r.faulted) : Signals (s.setThread t th) :=
  h.thread (fun st => st) th rfl rfl rfl (setState_id s t).symm (fun hi => hi) hframe hcalls
    (deathOk_of_none halive)

/-- INTERNAL: from the checkpoint on the handler finds everything it needs.
SOURCE: signal/mod.rs:101-167, signal/handler.rs:30-62 -/
theorem Signals.protect (h : Signals s) {m : ℕ} {pc : ProtectPc} (halive : s.death = none)
    (hc : s.control t = .protect m pc) (hstep : s.stepProtect t m pc = some s') : Signals s' := by
  obtain ⟨hinstalled, st, hst, hpc⟩ := h.frames t m pc hc
  have hcalls := h.records t
  cases pc with
  | enter =>
    cases hstep
    rw [goto_setState]
    refine h.setState_setThread halive _ _ ?_ hcalls
    rintro m' pc' ⟨⟩
    exact ⟨hinstalled, st, hst, rfl, hpc⟩
  | sigsetjmp =>
    cases hstep
    rw [goto_setState]
    refine h.setState_setThread halive _ _ ?_ hcalls
    rintro m' pc' ⟨⟩
    exact ⟨hinstalled, st, hst, hpc.1, rfl, hpc.2⟩
  | closure => cases hstep
  | handler addr =>
    simp only [Process.stepProtect, hst, handlerAdmits] at hstep
    rw [if_pos hpc.1] at hstep
    cases hstep
    refine h.setThread halive _ ?_ hcalls
    rintro m' pc' ⟨⟩
    exact ⟨hinstalled, st, hst, hpc⟩
  | load addr =>
    cases hstep
    refine h.setThread halive _ ?_ hcalls
    rintro m' pc' ⟨⟩
    exact ⟨hinstalled, st, hst, hpc⟩
  | scan addr snap loadedAt => cases hstep
  | siglongjmp addr =>
    cases hstep
    have hbuf : ((s.setState t fun st => handlerStores st addr).stateOf t).bind
        ThreadState.jmpBuf = some (s.threads t).frame := by
      rw [stateOf_setState_self, hst]
      exact hpc.2.1
    simp only [Process.siglongjmp]
    rw [if_pos hbuf, goto_setState]
    refine h.setState_setThread halive _ _ ?_ hcalls
    rintro m' pc' ⟨⟩
    exact ⟨hinstalled, st, hst, hpc.2.2⟩
  | leave jumpResult =>
    cases hstep
    refine h.setState_setThread halive _ _ ?_ ?_
    · rintro m' pc' ⟨⟩
    · intro r hr
      rcases List.mem_append.mp hr with hr | hr
      · exact hcalls r hr
      · rw [List.mem_singleton.mp hr]
        have hfaulted : (s.threads t).faulted =
          if jumpResult then some st.faultAddr else none := hpc
        simp only [stateOf_setState_self, hst, hfaulted]
        cases jumpResult <;> rfl

/-- INTERNAL: a call of `with_sigbus_protection` starts with a handler and a state.
SOURCE: signal/mod.rs:105-107 -/
theorem Signals.start (h : Signals s) (halive : s.death = none) (m : ℕ) :
    Signals (s.startProtect t m) := by
  have hp : Pointers ({ s with installed := true } : Process ι) :=
    pointers_congr h.pointers rfl rfl
  obtain ⟨⟨st, hst⟩, hothers⟩ := getOrInit_stateOf hp t
  have hdeath : (Process.getOrInit { s with installed := true } t).death = none := by
    unfold Process.getOrInit
    cases s.specific t <;> exact halive
  have hinstalled : (Process.getOrInit { s with installed := true } t).installed = true := by
    unfold Process.getOrInit
    cases s.specific t <;> rfl
  have hthreads : (Process.getOrInit { s with installed := true } t).threads = s.threads := by
    unfold Process.getOrInit
    cases s.specific t <;> rfl
  refine h.own (t := t) (pointers_congr (getOrInit_pointers hp t) rfl rfl) ?_ ?_ ?_ ?_
    (deathOk_of_none hdeath)
  · intro u hu
    refine ⟨?_, hothers u hu⟩
    show Function.update (Process.getOrInit { s with installed := true } t).threads t _ u = _
    rw [Function.update_of_ne hu, hthreads]
  · intro _
    exact hinstalled
  · intro m' pc hc
    refine ⟨hinstalled, st, hst, ?_⟩
    simp only [Process.startProtect, Process.setThread, Function.update_self] at hc ⊢
    cases hc
    rfl
  · simp only [Process.startProtect, Process.setThread, Function.update_self]
    exact h.records t

omit [DecidableEq ι] in
/-- INTERNAL: a scan that is in time and misses its address shows that the address is
outside of the mapping that the thread is accessing.
SOURCE: signal/registry.rs:141-153 -/
theorem scan_missed (h : Sound (View.of s)) {m addr loadedAt : ℕ} {snap : Option ℕ}
    {stale : List RegisteredRegion}
    (hc : s.control t = .protect m (.scan addr snap loadedAt))
    (hin : ScansInTime (t, .scan stale) s)
    (hmiss : ¬ scanRegions (s.scanned snap stale) addr = true) :
    ∃ x, s.maps m = some x ∧ ¬ x.has addr := by
  obtain ⟨x, i, hx, hsnap, -, hmem⟩ := h.readers t m addr snap loadedAt hc
  have hlive := (not_scansFreed_iff h (t, .scan stale)).mpr hin
  refine ⟨x, hx, ?_⟩
  rintro ⟨hlo, hhi⟩
  apply hmiss
  rw [scanRegions_iff]
  subst hsnap
  have hnot : i ∉ s.registry.freed := by
    intro hfreed
    exact hlive ⟨stale, m, addr, i, loadedAt, rfl, hc, hfreed⟩
  simp only [Process.scanned, if_neg hnot]
  exact ⟨x.region, hmem, hlo, hhi⟩

/-- INTERNAL: **a step keeps the signal layer in order**, if its scan is in time.
SOURCE: signal/mod.rs:101-167, signal/handler.rs:30-72 -/
theorem Signals.step [Fintype ι] {page : Usize} (hsound : Sound (View.of s)) (h : Signals s)
    (a : ι × Act) (hin : ScansInTime a s) (hstep : Process.step page a s = some s') :
    Signals s' := by
  obtain ⟨t, act⟩ := a
  unfold Process.step at hstep
  split at hstep
  · cases hstep
  · rename_i halive
    unfold Process.stepThread at hstep
    dsimp only at hstep
    split at hstep
    · -- `open`
      rename_i opts kernel hc
      split at hstep
      · cases hstep
        exact h
      · rename_i raw hraw
        split at hstep
        · cases hstep
          exact h.away (.mutate s.nextMap (.register raw.ptr.toNat raw.len.toNat) .lock) (by simp)
            rfl rfl rfl rfl (fun _ => rfl) halive
        · cases hstep
    · -- `drop`
      rename_i m hc
      split at hstep
      · rename_i ptr len hx
        split at hstep
        · cases hstep
          exact h.away (.mutate m (.unregister ptr) .lock) (by simp) rfl rfl rfl rfl (fun hi => hi)
            halive
        · cases hstep
      · cases hstep
    · rename_i m hc
      split at hstep
      · cases hstep
        exact h.start halive m
      · cases hstep
    · -- a touch inside the closure
      rename_i addr faults m hc
      obtain ⟨hinstalled, st, hst, hpc⟩ := h.frames t m .closure hc
      split at hstep
      · cases hstep
        simp only [Process.raise]
        rw [if_pos hinstalled]
        refine h.setThread halive _ ?_ (h.records t)
        rintro m' pc' ⟨⟩
        exact ⟨hinstalled, st, hst, hpc.1, hpc.2.1, rfl⟩
      · cases hstep
        exact h
    · rename_i m hc
      obtain ⟨hinstalled, st, hst, hpc⟩ := h.frames t m .closure hc
      cases hstep
      refine h.setThread halive _ ?_ (h.records t)
      rintro m' pc' ⟨⟩
      exact ⟨hinstalled, st, hst, hpc.2.2⟩
    · -- the scan of the handler
      rename_i stale m addr snap loadedAt hc
      obtain ⟨hinstalled, st, hst, hpc⟩ := h.frames t m _ hc
      split at hstep
      · cases hstep
        refine h.setThread halive _ ?_ (h.records t)
        rintro m' pc' ⟨⟩
        exact ⟨hinstalled, st, hst, hpc⟩
      · rename_i hmiss
        cases hstep
        obtain ⟨x, hx, hout⟩ := scan_missed hsound hc hin hmiss
        refine ⟨pointers_congr h.pointers rfl rfl, h.frames, h.records, ?_⟩
        intro d hd
        cases hd
        exact ⟨t, addr, m, snap, loadedAt, x, rfl, hc, hx, hout⟩
    · exact h.mutation halive hstep
    · rename_i m hc
      cases hstep
      exact h.away .idle (by simp) rfl rfl rfl rfl (fun hi => hi) halive
    · rename_i m pc hc
      exact h.protect halive hc hstep
    · cases hstep

end MmapShield.Analysis
