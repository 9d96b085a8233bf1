import MmapShield.Model.Process

/-!
# What one step does to the registry

The registry, its mutex, the mappings and the places of the threads in their code are
all that the invariants of the registry speak about. `View` is this part of a process,
and `View.Move v t v'` lists what a step of the thread `t` can do to it: nothing
(`stay`), nothing but to move the thread (`quiet`), or one of the steps of `open`, `drop`,
`register`, `unregister` and of the handler's load. `step_move` is the only place where the
step function is taken apart; every invariant is proved over the moves.
-/

set_option autoImplicit false

namespace MmapShield.Analysis

open MmapShield.Computation MmapShield.Model

/-- The part of a process that the invariants of the registry are about. -/
structure View (ι : Type) where
  registry : Registry
  mutex : Option ι
  maps : ℕ → Option Mapping
  nextMap : ℕ
  control : ι → Control

variable {ι : Type} [DecidableEq ι]

/-- The view of a process. -/
def View.of (s : Process ι) : View ι where
  registry := s.registry
  mutex := s.mutex
  maps := s.maps
  nextMap := s.nextMap
  control := s.control

/-- A thread outside `register`, `unregister` and `munmap`. -/
def aside : Control → Bool
  | .idle => true
  | .protect _ _ => true
  | _ => false

/-- A thread that does not hold a loaded snapshot either. -/
def settled : Control → Bool
  | .idle => true
  | .protect _ (.scan _ _ _) => false
  | .protect _ _ => true
  | _ => false

/-- The phase of one mapping replaced. -/
def setPhase (maps : ℕ → Option Mapping) (m : ℕ) (phase : MapPhase) : ℕ → Option Mapping :=
  Function.update maps m ((maps m).map fun x => { x with phase := phase })

/-- What a step of the thread `t` can do to the view. -/
inductive View.Move (v : View ι) (t : ι) : View ι → Prop
  | stay : Move v t v
  | quiet (c : Control) (hold : aside (v.control t) = true) (hnew : settled c = true)
      (hlive : ∀ m pc, c = .protect m pc → (∃ pc', v.control t = .protect m pc') ∨
        ∃ x, v.maps m = some x ∧ x.phase = .live) :
      Move v t { v with control := Function.update v.control t c }
  | look (m addr : ℕ) (hc : v.control t = .protect m (.load addr)) :
      Move v t { v with
        control := Function.update v.control t
          (.protect m (.scan addr v.registry.published v.registry.completed)) }
  | map (ptr len : ℕ) (hc : v.control t = .idle) (hlen : 0 < len) (hwrap : ptr + len < 2 ^ 64)
      (hfree : ∀ m x, m < v.nextMap → v.maps m = some x → x.phase.isMapped = true →
        x.ptr + x.len ≤ ptr ∨ ptr + len ≤ x.ptr) :
      Move v t { v with
        maps := Function.update v.maps v.nextMap (some ⟨ptr, len, .mapped⟩)
        nextMap := v.nextMap + 1
        control := Function.update v.control t (.mutate v.nextMap (.register ptr len) .lock) }
  | drop (m : ℕ) (x : Mapping) (hc : v.control t = .idle) (hx : v.maps m = some x)
      (hlive : x.phase = .live) (hfree : ∀ u, (v.control u).borrows m = false) :
      Move v t { v with
        maps := setPhase v.maps m .dropping
        control := Function.update v.control t (.mutate m (.unregister x.ptr) .lock) }
  | lock (m : ℕ) (op : Mutation) (hc : v.control t = .mutate m op .lock)
      (hfree : v.mutex = none) :
      Move v t { v with
        mutex := some t
        control := Function.update v.control t (.mutate m op .rotate) }
  | rotate (m : ℕ) (op : Mutation) (hc : v.control t = .mutate m op .rotate) :
      Move v t { v with
        registry := rotateRetired v.registry
        control := Function.update v.control t (.mutate m op .load) }
  | load (m : ℕ) (op : Mutation) (hc : v.control t = .mutate m op .load) :
      Move v t { v with
        control := Function.update v.control t (.mutate m op (.edit v.registry.published)) }
  | skip (m : ℕ) (op : Mutation) (old : Option ℕ) (hc : v.control t = .mutate m op (.edit old))
      (he : op.edit (old.map v.registry.heap) = none) :
      Move v t { v with
        registry := v.registry.skip
        maps := setPhase v.maps m (Process.swappedPhase op)
        control := Function.update v.control t (.mutate m op .unlock) }
  | edit (m : ℕ) (op : Mutation) (old : Option ℕ) (regions : List RegisteredRegion)
      (hc : v.control t = .mutate m op (.edit old))
      (he : op.edit (old.map v.registry.heap) = some regions) :
      Move v t { v with control := Function.update v.control t (.mutate m op (.swap regions)) }
  | swap (m : ℕ) (op : Mutation) (regions : List RegisteredRegion)
      (hc : v.control t = .mutate m op (.swap regions)) :
      Move v t { v with
        registry := v.registry.publish regions
        maps := setPhase v.maps m (Process.swappedPhase op)
        control := Function.update v.control t (.mutate m op .unlock) }
  | opened (m ptr len : ℕ) (hc : v.control t = .mutate m (.register ptr len) .unlock) :
      Move v t { v with
        mutex := none
        maps := setPhase v.maps m .live
        control := Function.update v.control t .idle }
  | dropped (m ptr : ℕ) (hc : v.control t = .mutate m (.unregister ptr) .unlock) :
      Move v t { v with
        mutex := none
        control := Function.update v.control t (.munmap m) }
  | munmap (m : ℕ) (hc : v.control t = .munmap m) :
      Move v t { v with
        maps := setPhase v.maps m .unmapped
        control := Function.update v.control t .idle }

/-! ## Views of the updates -/

/-- INTERNAL: the places of the threads after one of them is replaced. -/
theorem control_setThread (s : Process ι) (t : ι) (th : Thread) :
    (s.setThread t th).control = Function.update s.control t th.control := by
  funext u
  by_cases h : u = t
  · subst h
    simp [Process.control, Process.setThread]
  · simp [Process.control, Process.setThread, h]

/-- INTERNAL: the places of the threads after one of them moves on. -/
theorem control_goto (s : Process ι) (t : ι) (c : Control) :
    (s.goto t c).control = Function.update s.control t c :=
  control_setThread s t _

/-- INTERNAL: a process makes the move whose result it agrees with field by field. -/
theorem move_of {s s' : Process ι} {t : ι} {v : View ι} (h : (View.of s).Move t v)
    (hregistry : s'.registry = v.registry) (hmutex : s'.mutex = v.mutex)
    (hmaps : s'.maps = v.maps) (hnext : s'.nextMap = v.nextMap)
    (hcontrol : s'.control = v.control) : (View.of s).Move t (View.of s') := by
  have hv : View.of s' = v := by
    unfold View.of
    rw [hregistry, hmutex, hmaps, hnext, hcontrol]
  rw [hv]
  exact h

/-- INTERNAL: replacing a thread changes its place and nothing else of the view. -/
theorem view_setThread (s : Process ι) (t : ι) (th : Thread) :
    View.of (s.setThread t th) =
      { View.of s with control := Function.update s.control t th.control } := by
  unfold View.of
  rw [control_setThread]
  rfl

omit [DecidableEq ι] in
/-- INTERNAL: the state of a thread is not part of the view. -/
theorem view_setState (s : Process ι) (t : ι) (f : ThreadState → ThreadState) :
    View.of (s.setState t f) = View.of s := by
  unfold Process.setState
  cases s.specific t <;> rfl

/-- INTERNAL: nor is the initialisation of the state of a thread. -/
theorem view_getOrInit (s : Process ι) (t : ι) : View.of (s.getOrInit t) = View.of s := by
  unfold Process.getOrInit
  cases s.specific t <;> rfl

omit [DecidableEq ι] in
/-- INTERNAL: what the placement of a new mapping has checked. -/
theorem mmapAllowed_spec {s : Process ι} {ptr len : ℕ} (h : s.mmapAllowed ptr len = true) :
    ptr + len < 2 ^ 64 ∧ ∀ m x, m < s.nextMap → s.maps m = some x → x.phase.isMapped = true →
      x.ptr + x.len ≤ ptr ∨ ptr + len ≤ x.ptr := by
  simp only [Process.mmapAllowed, Bool.and_eq_true, decide_eq_true_eq, List.all_eq_true,
    List.mem_range] at h
  refine ⟨h.1, ?_⟩
  intro m x hm hx hmapped
  have hall := h.2 m hm
  simp only [hx, hmapped, Bool.not_true, Bool.false_or, Bool.or_eq_true,
    decide_eq_true_eq] at hall
  exact hall

/-- INTERNAL: a step of a thread that stays inside its protected call, or outside of
all code of the crate, is quiet. -/
theorem quiet_stay {s : Process ι} {t : ι} {th : Thread} {m : ℕ} {pc pc' : ProtectPc}
    (hc : s.control t = .protect m pc) (hth : th.control = .protect m pc')
    (hset : settled (.protect m pc') = true) :
    (View.of s).Move t { View.of s with control := Function.update s.control t th.control } := by
  rw [hth]
  refine View.Move.quiet _ ?_ hset ?_
  · show aside (s.control t) = true
    rw [hc]
    rfl
  · intro m' pc'' heq
    cases heq
    exact Or.inl ⟨pc, hc⟩

/-- INTERNAL: a step that changes nothing of the view. -/
theorem stay_of {s s' : Process ι} {t : ι} (hv : View.of s' = View.of s) :
    (View.of s).Move t (View.of s') := by
  rw [hv]
  exact View.Move.stay

/-! ## The steps -/

/-- INTERNAL: a step of `register` or `unregister` is one of the moves of the registry.
SOURCE: signal/registry.rs:75-127 -/
theorem stepMutation_move {s s' : Process ι} {t : ι} {m : ℕ} {op : Mutation} {pc : MutationPc}
    (hc : s.control t = .mutate m op pc) (h : s.stepMutation t m op pc = some s') :
    (View.of s).Move t (View.of s') := by
  have hgoto (c : Control) : (s.goto t c).control = Function.update s.control t c :=
    control_goto s t c
  cases pc with
  | lock =>
    simp only [Process.stepMutation] at h
    split at h
    · rename_i hfree
      cases h
      exact move_of (View.Move.lock m op hc hfree) rfl rfl rfl rfl (hgoto _)
    · cases h
  | rotate =>
    cases h
    exact move_of (View.Move.rotate m op hc) rfl rfl rfl rfl (hgoto _)
  | load =>
    cases h
    exact move_of (View.Move.load m op hc) rfl rfl rfl rfl (hgoto _)
  | edit old =>
    simp only [Process.stepMutation] at h
    split at h
    · rename_i he
      cases h
      exact move_of (View.Move.skip m op old hc he) rfl rfl rfl rfl (hgoto _)
    · rename_i regions he
      cases h
      exact move_of (View.Move.edit m op old regions hc he) rfl rfl rfl rfl (hgoto _)
  | swap regions =>
    cases h
    exact move_of (View.Move.swap m op regions hc) rfl rfl rfl rfl (hgoto _)
  | unlock =>
    cases op with
    | register ptr len =>
      cases h
      exact move_of (View.Move.opened m ptr len hc) rfl rfl rfl rfl (hgoto _)
    | unregister ptr =>
      cases h
      exact move_of (View.Move.dropped m ptr hc) rfl rfl rfl rfl (hgoto _)

/-- INTERNAL: a step that replaces a thread inside its protected call, whatever it does to
the states of the threads, is quiet. -/
theorem quiet_setThread {s s₁ : Process ι} {t : ι} {th : Thread} {m : ℕ} {pc pc' : ProtectPc}
    (hc : s.control t = .protect m pc) (hv : View.of s₁ = View.of s)
    (hth : th.control = .protect m pc') (hset : settled (.protect m pc') = true) :
    (View.of s).Move t (View.of (s₁.setThread t th)) := by
  have hcontrol : s₁.control = s.control := congrArg View.control hv
  rw [view_setThread, hv, hcontrol]
  exact quiet_stay hc hth hset

/-- INTERNAL: a step of a protected call or of its handler only looks at the registry.
SOURCE: signal/mod.rs:101-167, signal/handler.rs:30-62 -/
theorem stepProtect_move {s s' : Process ι} {t : ι} {m : ℕ} {pc : ProtectPc}
    (hc : s.control t = .protect m pc) (h : s.stepProtect t m pc = some s') :
    (View.of s).Move t (View.of s') := by
  cases pc with
  | enter =>
    cases h
    exact quiet_setThread hc (view_setState s t _) rfl rfl
  | sigsetjmp =>
    cases h
    exact quiet_setThread hc (view_setState s t _) rfl rfl
  | closure => cases h
  | handler addr =>
    simp only [Process.stepProtect] at h
    split at h
    · cases h
      exact quiet_setThread hc rfl rfl rfl
    · cases h
      exact stay_of rfl
  | load addr =>
    cases h
    exact move_of (View.Move.look m addr hc) rfl rfl rfl rfl (control_goto s t _)
  | scan addr snap loadedAt => cases h
  | siglongjmp addr =>
    cases h
    simp only [Process.siglongjmp]
    split
    · exact quiet_setThread hc (view_setState s t _) rfl rfl
    · exact stay_of (view_setState s t _)
  | leave jumpResult =>
    cases h
    have hv := view_setState s t ThreadState.leave
    have hcontrol : (s.setState t ThreadState.leave).control = s.control :=
      congrArg View.control hv
    simp only [Process.leave]
    rw [view_setThread, hv, hcontrol]
    refine View.Move.quiet _ ?_ rfl ?_
    · show aside (s.control t) = true
      rw [hc]
      rfl
    · intro m' pc' heq
      cases heq

/-- INTERNAL: **what a step of the process can do to the registry.**
SOURCE: mmap/mod.rs:328-407, 1064-1068, signal/registry.rs:75-153 -/
theorem step_move [Fintype ι] {page : Usize} {t : ι} {act : Act} {s s' : Process ι}
    (h : Process.step page (t, act) s = some s') : (View.of s).Move t (View.of s') := by
  unfold Process.step at h
  split at h
  · cases h
  · unfold Process.stepThread at h
    dsimp only at h
    split at h
    · -- `open`
      rename_i opts kernel hc
      split at h
      · cases h
        exact stay_of rfl
      · rename_i raw hraw
        split at h
        · rename_i hallowed
          cases h
          obtain ⟨hwrap, hfree⟩ := mmapAllowed_spec hallowed
          exact move_of (View.Move.map _ _ hc (SafeMmapOptions.openRaw_len_pos hraw) hwrap hfree)
            rfl rfl rfl rfl (control_goto _ t _)
        · cases h
    · -- `drop`
      rename_i m hc
      split at h
      · rename_i ptr len hx
        split at h
        · rename_i hfree
          cases h
          simp only [Process.unborrowed, decide_eq_true_eq] at hfree
          exact move_of (View.Move.drop m _ hc hx rfl hfree) rfl rfl rfl rfl (control_goto _ t _)
        · cases h
      · cases h
    · -- `with_sigbus_protection`
      rename_i m hc
      split at h
      · rename_i ptr len hx
        cases h
        have hv : View.of (Process.getOrInit { s with installed := true } t) = View.of s :=
          view_getOrInit _ t
        have hcontrol := congrArg View.control hv
        simp only [Process.startProtect]
        rw [view_setThread, hv]
        rw [show (Process.getOrInit { s with installed := true } t).control = s.control from
          hcontrol]
        refine View.Move.quiet _ ?_ rfl ?_
        · show aside (s.control t) = true
          rw [hc]
          rfl
        · intro m' pc heq
          cases heq
          exact Or.inr ⟨_, hx, rfl⟩
      · cases h
    · -- a touch inside the closure
      rename_i addr faults m hc
      split at h
      · cases h
        simp only [Process.raise]
        split
        · exact quiet_setThread hc rfl rfl rfl
        · exact stay_of rfl
      · cases h
        exact stay_of rfl
    · -- the closure returns
      rename_i m hc
      cases h
      exact quiet_setThread hc rfl rfl rfl
    · -- the scan of the handler
      rename_i stale m addr snap loadedAt hc
      split at h
      · cases h
        exact quiet_setThread hc rfl rfl rfl
      · cases h
        exact stay_of rfl
    · rename_i m op pc hc
      exact stepMutation_move hc h
    · rename_i m hc
      cases h
      exact move_of (View.Move.munmap m hc) rfl rfl rfl rfl (control_goto _ t _)
    · rename_i m pc hc
      exact stepProtect_move hc h
    · cases h

end MmapShield.Analysis
