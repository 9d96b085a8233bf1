import MmapShield.Analysis.TheoremKeys

/-!
# Who owns the thread states

`get_or_init` boxes a state and leaves it under the key, and `destroy_thread_state` frees it when
the thread exits. In every order of steps no pointer to a freed state is left anywhere, no two
threads share a state, and no thread has two under keys (`states_owned`).

A state can be lost in three ways: `pthread_setspecific` fails, a handler jumps out of `get_or_init`
between the box and the key, or a thread ends with its state still under the key. The second one
does not happen to a handler that has loaded the key in time: a thread that is there has a null
value under the key, for which the handler raises the signal again (`keeps_in_time`).

`Move` is what a step does to the states. `Possesses` then changes for at most one thread and one
state.
-/

set_option autoImplicit false

namespace MmapShield.Analysis.States

open MmapShield.Computation MmapShield.Model MmapShield.Analysis.Keys

variable {τ : Type} {s s' : Model.Keys τ} {t : τ}

/-- The state is under a key of the thread, in the hands of its `get_or_init`, or about to be
destroyed. -/
def Possesses (s : Model.Keys τ) (t : τ) (id : ℕ) : Prop :=
  (∃ k, s.specific t k = .state id) ∨ (∃ k, (s.threads t).pc = .set k id) ∨
    (s.threads t).destroying = some id

/-- The thread has not ended, and can get at the state. -/
def Referenced (s : Model.Keys τ) (t : τ) (id : ℕ) : Prop :=
  (s.threads t).life ≠ .ended ∧ Possesses s t id

/-- Some state has not been freed, and its thread cannot get at it. -/
def Lost (s : Model.Keys τ) : Prop := ∃ id t, s.heap id = some t ∧ ¬ Referenced s t id

/-- What the code needs so that no state is lost: `pthread_setspecific` does not fail, no thread
ends with a state under a key, and no handler that finds a value jumps out of `get_or_init` between
the box and the key. -/
def KeepsState : KeyAct τ → Model.Keys τ → Prop
  | .setFails _, _ => False
  | .finish t, s => ∀ k id, s.specific t k ≠ .state id
  | .handlerState t true, s => ∀ k id, (s.threads t).pc = .set k id →
    ∀ k' published rest, (s.threads t).handlers = .loaded k' published :: rest →
      s.specific t k' = .null
  | _, _ => True

/-- The thread is about to allocate a state, or to set it. -/
def making (k : ℕ) : InitPc → Prop
  | .alloc k' | .set k' _ => k = k'
  | _ => False

/-- A thread that makes a state has none, and one that has ended destroys none. -/
structure Tidy (s : Model.Keys τ) : Prop where
  empty : ∀ t k, making k (s.threads t).pc → s.specific t k = .null
  ended : ∀ t, (s.threads t).life = .ended → (s.threads t).destroying = none

/-- INTERNAL: at first nobody makes a state. -/
theorem tidy_init : Tidy (Keys.init : Model.Keys τ) where
  empty := by simp [Keys.init, making]
  ended := by simp [Keys.init]

/-! ## The moves -/

section Moves

variable [DecidableEq τ]

/-- What a step does to the states: nothing, something to one thread that keeps its states, a state
is lost by its thread, a thread ends, another library sets a value, a state is allocated, set under
the key, handed to the destructor, or freed. -/
inductive Move (s s' : Model.Keys τ) (act : KeyAct τ) : Prop
  | quiet (hheap : s'.heap = s.heap) (hspecific : s'.specific = s.specific)
      (hthreads : s'.threads = s.threads) (hkeeps : KeepsState act s)
  | thread (t : τ) (th : KeyThread) (hheap : s'.heap = s.heap)
      (hspecific : s'.specific = s.specific)
      (hthreads : s'.threads = Function.update s.threads t th)
      (hset : ∀ k id, th.pc = .set k id ↔ (s.threads t).pc = .set k id)
      (hdestroying : th.destroying = (s.threads t).destroying)
      (hlife : th.life = .ended ↔ (s.threads t).life = .ended)
      (hempty : ∀ k, making k th.pc → s.specific t k = .null) (hkeeps : KeepsState act s)
  | lose (t : τ) (k id : ℕ) (th : KeyThread) (hpc : (s.threads t).pc = .set k id)
      (hheap : s'.heap = s.heap) (hspecific : s'.specific = s.specific)
      (hthreads : s'.threads = Function.update s.threads t th) (hidle : th.pc = .idle)
      (hdestroying : th.destroying = (s.threads t).destroying)
      (hlife : th.life = .ended ↔ (s.threads t).life = .ended) (hkeeps : ¬ KeepsState act s)
  | finish (t : τ) (hact : act = .finish t) (hpc : (s.threads t).pc = .idle)
      (hdestroying : (s.threads t).destroying = none) (hheap : s'.heap = s.heap)
      (hspecific : s'.specific = s.specific)
      (hthreads : s'.threads = Function.update s.threads t { s.threads t with life := .ended })
  | library (t : τ) (key : ℕ) (value : KeyValue) (hkey : s.keys key = some .library)
      (hvalue : ∀ id, value ≠ .state id) (hpc : (s.threads t).pc = .idle)
      (hheap : s'.heap = s.heap) (hthreads : s'.threads = s.threads)
      (hspecific : s'.specific =
        Function.update s.specific t (Function.update (s.specific t) key value))
      (hkeeps : KeepsState act s)
  | alloc (t : τ) (k : ℕ) (hpc : (s.threads t).pc = .alloc k)
      (hlife : (s.threads t).life ≠ .ended)
      (hheap : s'.heap = Function.update s.heap s.nextId (some t))
      (hspecific : s'.specific = s.specific)
      (hthreads : s'.threads =
        Function.update s.threads t { s.threads t with pc := .set k s.nextId })
      (hkeeps : KeepsState act s)
  | set (t : τ) (k id : ℕ) (hpc : (s.threads t).pc = .set k id) (hheap : s'.heap = s.heap)
      (hspecific : s'.specific =
        Function.update s.specific t (Function.update (s.specific t) k (.state id)))
      (hthreads : s'.threads = Function.update s.threads t { s.threads t with pc := .idle })
      (hkeeps : KeepsState act s)
  | cleanup (t : τ) (k : ℕ) (d : Option ℕ) (hpc : (s.threads t).pc = .idle)
      (hdestroying : (s.threads t).destroying = none) (hlife : (s.threads t).life = .exiting)
      (hstate : ∀ id, s.specific t k = .state id ↔ d = some id) (hheap : s'.heap = s.heap)
      (hspecific : s'.specific =
        Function.update s.specific t (Function.update (s.specific t) k .null))
      (hthreads : s'.threads = Function.update s.threads t { s.threads t with destroying := d })
      (hkeeps : KeepsState act s)
  | destroy (t : τ) (id : ℕ) (hid : (s.threads t).destroying = some id)
      (hheap : s'.heap = Function.update s.heap id none) (hspecific : s'.specific = s.specific)
      (hthreads : s'.threads = Function.update s.threads t { s.threads t with destroying := none })
      (hkeeps : KeepsState act s)

/-- INTERNAL: a thread that makes no state goes on inside or outside of `get_or_init`. -/
theorem Move.goto {act : KeyAct τ} {u : Model.Keys τ} {pc : InitPc} (hheap : u.heap = s.heap)
    (hspecific : u.specific = s.specific) (hthreads : u.threads = s.threads)
    (hbefore : ∀ k id, (s.threads t).pc ≠ .set k id) (hafter : ∀ k id, pc ≠ .set k id)
    (hempty : ∀ k, making k pc → s.specific t k = .null) (hkeeps : KeepsState act s) :
    Move s (u.goto t pc) act := by
  refine .thread t { s.threads t with pc := pc } hheap hspecific ?_ ?_ rfl Iff.rfl hempty hkeeps
  · show Function.update u.threads t { u.threads t with pc := pc } = _
    rw [hthreads]
  · intro k id
    exact iff_of_false (hafter k id) (hbefore k id)

/-- INTERNAL: what a step of `get_or_init` does to the states.
SOURCE: signal/thread_state.rs:77-97 -/
theorem next_move (hlife : (s.threads t).life ≠ .ended) (hstep : s.nextStep t = some s') :
    Move s s' (.next t) := by
  unfold Keys.nextStep at hstep
  cases hpc : (s.threads t).pc with
  | idle | create =>
      simp only [hpc] at hstep
      cases hstep
  | callOnce =>
      simp only [hpc] at hstep
      split at hstep
      · cases hstep
        exact .goto rfl rfl rfl (by simp [hpc]) (by simp) (by simp [making]) trivial
      · cases hstep
      · cases hstep
        exact .goto rfl rfl rfl (by simp [hpc]) (by simp) (by simp [making]) trivial
      · cases hstep
        exact .goto rfl rfl rfl (by simp [hpc]) (by simp) (by simp [making]) trivial
  | store k | complete | load =>
      simp only [hpc] at hstep
      cases hstep
      exact .goto rfl rfl rfl (by simp [hpc]) (by simp) (by simp [making]) trivial
  | get k =>
      simp only [hpc] at hstep
      split at hstep
      · rename_i hnull
        cases hstep
        refine .goto rfl rfl rfl (by simp [hpc]) (by simp) ?_ trivial
        rintro k' hk'
        rw [show k' = k from hk']
        exact hnull
      · cases hstep
        exact .goto rfl rfl rfl (by simp [hpc]) (by simp) (by simp [making]) trivial
  | alloc k =>
      simp only [hpc] at hstep
      cases hstep
      exact .alloc t k hpc hlife rfl rfl rfl trivial
  | set k id =>
      simp only [hpc] at hstep
      cases hstep
      exact .set t k id hpc rfl rfl rfl trivial

/-- INTERNAL: what the creation of the key does to the states.
SOURCE: signal/thread_state.rs:80-81 -/
theorem create_move {act : KeyAct τ} {key : Option ℕ} (hkeeps : KeepsState act s)
    (hstep : s.createStep t key = some s') : Move s s' act := by
  unfold Keys.createStep at hstep
  split at hstep
  · rename_i hpc
    split at hstep
    · cases hstep
      exact .goto rfl rfl rfl (by simp [hpc]) (by simp) (by simp [making]) hkeeps
    · cases hstep
  · rename_i hpc
    cases hstep
    exact .goto rfl rfl rfl (by simp [hpc]) (by simp) (by simp [making]) hkeeps
  · cases hstep

/-- INTERNAL: what the cleanup of a value does to the states.
SOURCE: signal/thread_state.rs:58-63 -/
theorem cleanup_move {key : ℕ} (hpc : (s.threads t).pc = .idle)
    (hdestroying : (s.threads t).destroying = none) (hlife : (s.threads t).life = .exiting)
    (hstep : s.cleanupStep t key = some s') : Move s s' (.cleanup t key) := by
  unfold Keys.cleanupStep at hstep
  split at hstep
  · cases hstep
  · rename_i ptr hvalue
    cases hstep
    refine .cleanup t key none hpc hdestroying hlife (by simp [hvalue]) rfl rfl ?_ trivial
    have hthread : ({ s.threads t with destroying := none } : KeyThread) = s.threads t := by
      rw [← hdestroying]
    rw [hthread, Function.update_eq_self]
    rfl
  · rename_i id hvalue
    cases hstep
    exact .cleanup t key (some id) hpc hdestroying hlife (by simp [hvalue]) rfl rfl rfl trivial

/-- INTERNAL: **what a handler does to the states**: it loses the one that its thread has in hand,
if it jumps.
SOURCE: signal/handler.rs:37-61, signal/thread_state.rs:92-96 -/
theorem handlerState_move {jumps : Bool} (hstep : s.handlerStateStep t jumps = some s') :
    Move s s' (.handlerState t jumps) := by
  unfold Keys.handlerStateStep at hstep
  split at hstep
  · rename_i k published rest hhandlers
    split at hstep
    · rename_i hnull
      cases hstep
      refine .quiet rfl rfl rfl ?_
      cases jumps with
      | false => trivial
      | true =>
          intro _ _ _ k' published' rest' hhandlers'
          rw [hhandlers] at hhandlers'
          cases hhandlers'
          exact hnull
    · rename_i hvalue
      cases jumps with
      | false =>
          cases hstep
          exact .quiet rfl rfl rfl trivial
      | true =>
          cases hstep
          by_cases hset : ∃ k id, (s.threads t).pc = .set k id
          · obtain ⟨k', id, hpc⟩ := hset
            refine .lose t k' id { s.threads t with handlers := [], pc := .idle } hpc rfl rfl rfl
              rfl rfl Iff.rfl ?_
            intro hkeeps
            exact hvalue (hkeeps k' id hpc k published rest hhandlers)
          · have hnot (k' id : ℕ) : (s.threads t).pc ≠ .set k' id := fun hpc => hset ⟨k', id, hpc⟩
            refine .thread t { s.threads t with handlers := [], pc := .idle } rfl rfl rfl
              (fun k' id => iff_of_false (by simp) (hnot k' id)) rfl Iff.rfl (by simp [making]) ?_
            intro k' id hpc
            exact absurd hpc (hnot k' id)
  · cases hstep

/-- INTERNAL: **what a step does to the states.** -/
theorem step_move (htidy : Tidy s) {act : KeyAct τ} (hstep : Keys.step act s = some s') :
    Move s s' act := by
  have hcode {t : τ} (h : (s.threads t).inCode = true) :
      (s.threads t).life ≠ .ended ∧ (s.threads t).destroying = none := by
    simp only [KeyThread.inCode, Bool.and_eq_true, Bool.or_eq_true, beq_iff_eq,
      Option.isNone_iff_eq_none] at h
    refine ⟨?_, h.2⟩
    rcases h.1.1 with hlife | hlife
    · simp [hlife]
    · simp [hlife]
  -- a change of the handlers of a thread, or of its life, that has not ended
  have hkeep {t : τ} {th : KeyThread} (hpc : th.pc = (s.threads t).pc)
      (hdestroying : th.destroying = (s.threads t).destroying)
      (hlife : th.life = .ended ↔ (s.threads t).life = .ended) (hkeeps : KeepsState act s) :
      Move s (s.setThread t th) act := by
    refine .thread t th rfl rfl rfl (fun k id => by rw [hpc]) hdestroying hlife ?_ hkeeps
    intro k hk
    exact htidy.empty t k (hpc ▸ hk)
  unfold Keys.step at hstep
  split at hstep
  · cases hstep
  · cases act with
    | spawn t =>
        dsimp only at hstep
        split at hstep
        · rename_i hlife
          cases hstep
          exact hkeep rfl rfl (by simp [hlife]) trivial
        · cases hstep
    | exit t =>
        dsimp only at hstep
        split at hstep
        · rename_i hguard
          cases hstep
          exact hkeep rfl rfl (by simp [(hcode hguard.1).1]) trivial
        · cases hstep
    | finish t =>
        dsimp only at hstep
        split at hstep
        · rename_i hguard
          cases hstep
          exact .finish t rfl hguard.2.1 (hcode hguard.1).2 rfl rfl rfl
        · cases hstep
    | libraryCreate key | openMapping t =>
        dsimp only at hstep
        split at hstep
        · cases hstep
          exact .quiet rfl rfl rfl trivial
        · cases hstep
    | librarySet t key ptr =>
        dsimp only at hstep
        split at hstep
        · rename_i hguard
          cases hstep
          refine .library t key _ hguard.2.2 ?_ hguard.2.1 rfl rfl rfl trivial
          cases ptr <;> simp
        · cases hstep
    | access t =>
        dsimp only at hstep
        split at hstep
        · rename_i hguard
          cases hstep
          exact .goto rfl rfl rfl (by simp [hguard.2]) (by simp) (by simp [making]) trivial
        · cases hstep
    | next t =>
        dsimp only at hstep
        split at hstep
        · rename_i hguard
          exact next_move (hcode hguard).1 hstep
        · cases hstep
    | create t key | createFails t =>
        dsimp only at hstep
        split at hstep
        · exact create_move trivial hstep
        · cases hstep
    | setFails t =>
        dsimp only [Keys.setFailsStep] at hstep
        split at hstep
        · split at hstep
          · rename_i k id hpc
            cases hstep
            exact .lose t k id { s.threads t with pc := .idle } hpc rfl rfl rfl rfl rfl Iff.rfl
              not_false
          · cases hstep
        · cases hstep
    | cleanup t key =>
        dsimp only at hstep
        split at hstep
        · rename_i hguard
          exact cleanup_move hguard.2.1 (hcode hguard.1).2 hguard.2.2 hstep
        · cases hstep
    | destroy t =>
        dsimp only [Keys.destroyStep] at hstep
        split at hstep
        · rename_i hid
          cases hstep
          exact .destroy t _ hid rfl rfl rfl trivial
        · cases hstep
    | sigbus t =>
        dsimp only [Keys.sigbusStep] at hstep
        split at hstep
        · split at hstep
          · cases hstep
            exact hkeep rfl rfl Iff.rfl trivial
          · cases hstep
            exact .quiet rfl rfl rfl trivial
        · cases hstep
    | handlerKey t =>
        dsimp only [Keys.handlerKeyStep] at hstep
        split at hstep
        · cases hstep
          exact hkeep rfl rfl Iff.rfl trivial
        · cases hstep
    | handlerState t jumps => exact handlerState_move hstep

end Moves

/-! ## What the moves leave -/

section Effects

variable [DecidableEq τ]

omit [DecidableEq τ] in
/-- INTERNAL: states that are where they were are as lost as before. -/
theorem lost_congr (hheap : s'.heap = s.heap)
    (hreferenced : ∀ id u, s.heap id = some u → (Referenced s' u id ↔ Referenced s u id)) :
    Lost s' ↔ Lost s := by
  unfold Lost
  rw [hheap]
  refine exists_congr fun id => exists_congr fun u => and_congr_right fun hid => ?_
  rw [hreferenced id u hid]

/-- INTERNAL: what a thread possesses after it has changed. -/
theorem possesses_self {th : KeyThread} {id : ℕ}
    (hthreads : s'.threads = Function.update s.threads t th) :
    Possesses s' t id ↔
      (∃ k, s'.specific t k = .state id) ∨ (∃ k, th.pc = .set k id) ∨ th.destroying = some id := by
  unfold Possesses
  rw [hthreads, Function.update_self]

/-- INTERNAL: the other threads possess what they have possessed. -/
theorem referenced_other {th : KeyThread} {u : τ} {id : ℕ} (hut : u ≠ t)
    (hspecific : s'.specific u = s.specific u)
    (hthreads : s'.threads = Function.update s.threads t th) :
    Referenced s' u id ↔ Referenced s u id := by
  unfold Referenced Possesses
  rw [hthreads, Function.update_of_ne hut, hspecific]

/-- INTERNAL: a thread that changes keeps what it possesses, when its values do not change. -/
theorem referenced_thread {th : KeyThread} {u : τ} {id : ℕ}
    (hthreads : s'.threads = Function.update s.threads t th) (hspecific : s'.specific = s.specific)
    (hset : ∀ k, th.pc = .set k id ↔ (s.threads t).pc = .set k id)
    (hdestroying : th.destroying = some id ↔ (s.threads t).destroying = some id)
    (hlife : th.life = .ended ↔ (s.threads t).life = .ended) :
    Referenced s' u id ↔ Referenced s u id := by
  by_cases hut : u = t
  · subst hut
    refine and_congr (not_congr ?_) ?_
    · rw [hthreads, Function.update_self]
      exact hlife
    · rw [possesses_self hthreads, hspecific]
      exact or_congr Iff.rfl (or_congr (exists_congr hset) hdestroying)
  · exact referenced_other hut (congrFun hspecific u) hthreads

/-- INTERNAL: a step keeps the thread that makes a state without one. -/
theorem Tidy.move (h : Tidy s) {act : KeyAct τ} (hmove : Move s s' act) : Tidy s' := by
  -- a change of one thread, with its values under the keys
  have hthread {t : τ} {th : KeyThread} (hthreads : s'.threads = Function.update s.threads t th)
      (hothers : ∀ u ≠ t, s'.specific u = s.specific u)
      (hempty : ∀ k, making k th.pc → s'.specific t k = .null)
      (hended : th.life = .ended → th.destroying = none) : Tidy s' := by
    refine ⟨?_, ?_⟩
    · intro u k hu
      by_cases hut : u = t
      · subst hut
        exact hempty k (by simpa [hthreads] using hu)
      · rw [hothers u hut]
        exact h.empty u k (by simpa [hthreads, hut] using hu)
    · intro u hu
      rw [hthreads] at hu ⊢
      by_cases hut : u = t
      · subst hut
        rw [Function.update_self] at hu ⊢
        exact hended hu
      · rw [Function.update_of_ne hut] at hu ⊢
        exact h.ended u hu
  cases hmove with
  | quiet hheap hspecific hthreads hkeeps =>
      refine ⟨?_, ?_⟩
      · rw [hspecific, hthreads]
        exact h.empty
      · rw [hthreads]
        exact h.ended
  | thread t th hheap hspecific hthreads hset hdestroying hlife hempty hkeeps =>
      refine hthread hthreads (fun u _ => congrFun hspecific u) ?_ ?_
      · rw [hspecific]
        exact hempty
      · intro hended
        rw [hdestroying]
        exact h.ended t (hlife.mp hended)
  | lose t k id th hpc hheap hspecific hthreads hidle hdestroying hlife hkeeps =>
      refine hthread hthreads (fun u _ => congrFun hspecific u) ?_ ?_
      · simp [hidle, making]
      · intro hended
        rw [hdestroying]
        exact h.ended t (hlife.mp hended)
  | finish t hact hpc hdestroying hheap hspecific hthreads =>
      refine hthread hthreads (fun u _ => congrFun hspecific u) ?_ fun _ => hdestroying
      simp [hpc, making]
  | library t key value hkey hvalue hpc hheap hthreads hspecific hkeeps =>
      refine ⟨?_, ?_⟩
      · intro u k hu
        rw [hthreads] at hu
        have hut : u ≠ t := by
          rintro rfl
          rw [hpc] at hu
          exact hu
        rw [hspecific, Function.update_of_ne hut]
        exact h.empty u k hu
      · rw [hthreads]
        exact h.ended
  | alloc t k hpc hlife hheap hspecific hthreads hkeeps =>
      refine hthread hthreads (fun u _ => congrFun hspecific u) ?_ (h.ended t)
      intro k' hk'
      rw [show k' = k from hk', hspecific]
      exact h.empty t k (by rw [hpc]; rfl)
  | set t k id hpc hheap hspecific hthreads hkeeps =>
      refine hthread hthreads (fun u hut => ?_) (by simp [making]) (h.ended t)
      rw [hspecific, Function.update_of_ne hut]
  | cleanup t k d hpc hdestroying hlife hstate hheap hspecific hthreads hkeeps =>
      refine hthread hthreads (fun u hut => ?_) ?_ (by simp [hlife])
      · rw [hspecific, Function.update_of_ne hut]
      · simp [hpc, making]
  | destroy t id hid hheap hspecific hthreads hkeeps =>
      refine hthread hthreads (fun u _ => congrFun hspecific u) ?_ fun _ => rfl
      rw [hspecific]
      exact h.empty t

/-- INTERNAL: another library sets a value under a key of its own, where no state is. -/
theorem library_referenced (hok : KeysOk s) {key : ℕ} {value : KeyValue}
    (hkey : s.keys key = some .library) (hvalue : ∀ id, value ≠ .state id)
    (hthreads : s'.threads = s.threads)
    (hspecific : s'.specific =
      Function.update s.specific t (Function.update (s.specific t) key value)) (u : τ) (id : ℕ) :
    Referenced s' u id ↔ Referenced s u id := by
  have hslot : (∃ k, s'.specific u k = .state id) ↔ ∃ k, s.specific u k = .state id := by
    refine exists_congr fun k => ?_
    rw [hspecific]
    by_cases hut : u = t
    · subst hut
      rw [Function.update_self]
      by_cases hk : k = key
      · subst hk
        rw [Function.update_self]
        refine iff_of_false (hvalue id) fun hstate => ?_
        rw [(hok.state u k id hstate).1] at hkey
        cases hkey
      · rw [Function.update_of_ne hk]
    · rw [Function.update_of_ne hut]
  unfold Referenced Possesses
  rw [hthreads, hslot]

/-- INTERNAL: a state goes from the hands of `get_or_init` under the key, where there was none.
SOURCE: signal/thread_state.rs:93-96 -/
theorem set_referenced (htidy : Tidy s) {k i : ℕ} (hpc : (s.threads t).pc = .set k i)
    (hspecific : s'.specific =
      Function.update s.specific t (Function.update (s.specific t) k (.state i)))
    (hthreads : s'.threads = Function.update s.threads t { s.threads t with pc := .idle }) (u : τ)
    (id : ℕ) : Referenced s' u id ↔ Referenced s u id := by
  by_cases hut : u = t
  · subst hut
    refine and_congr (not_congr ?_) ?_
    · rw [hthreads, Function.update_self]
    · have hnull : s.specific u k = .null := htidy.empty u k (by rw [hpc]; rfl)
      have hslot : (∃ k', s'.specific u k' = .state id) ↔
          (∃ k', s.specific u k' = .state id) ∨ i = id := by
        rw [hspecific, Function.update_self]
        constructor
        · rintro ⟨k', hk'⟩
          by_cases heq : k' = k
          · subst heq
            right
            simpa using hk'
          · exact Or.inl ⟨k', by simpa [heq] using hk'⟩
        · rintro (⟨k', hk'⟩ | rfl)
          · have heq : k' ≠ k := by
              rintro rfl
              rw [hnull] at hk'
              cases hk'
            exact ⟨k', by simpa [heq] using hk'⟩
          · exact ⟨k, by simp⟩
      rw [possesses_self hthreads, hslot]
      unfold Possesses
      simp only [hpc, reduceCtorEq, exists_false, false_or, InitPc.set.injEq, exists_eq_left',
        or_assoc]
  · exact referenced_other hut (by rw [hspecific, Function.update_of_ne hut]) hthreads

/-- INTERNAL: a state goes from the key to the destructor.
SOURCE: signal/thread_state.rs:58-63 -/
theorem cleanup_referenced {k : ℕ} {d : Option ℕ} (hdestroying : (s.threads t).destroying = none)
    (hstate : ∀ id, s.specific t k = .state id ↔ d = some id)
    (hspecific : s'.specific =
      Function.update s.specific t (Function.update (s.specific t) k .null))
    (hthreads : s'.threads = Function.update s.threads t { s.threads t with destroying := d })
    (u : τ) (id : ℕ) : Referenced s' u id ↔ Referenced s u id := by
  by_cases hut : u = t
  · subst hut
    refine and_congr (not_congr ?_) ?_
    · rw [hthreads, Function.update_self]
    · have hslot : (∃ k', s.specific u k' = .state id) ↔
          (∃ k', s'.specific u k' = .state id) ∨ d = some id := by
        rw [hspecific, Function.update_self]
        constructor
        · rintro ⟨k', hk'⟩
          by_cases heq : k' = k
          · subst heq
            exact Or.inr ((hstate id).mp hk')
          · exact Or.inl ⟨k', by simpa [heq] using hk'⟩
        · rintro (⟨k', hk'⟩ | hd)
          · by_cases heq : k' = k
            · subst heq
              simp at hk'
            · exact ⟨k', by simpa [heq] using hk'⟩
          · exact ⟨k, (hstate id).mpr hd⟩
      rw [possesses_self hthreads]
      unfold Possesses
      rw [hslot, hdestroying]
      simp only [reduceCtorEq, or_false]
      tauto
  · exact referenced_other hut (by rw [hspecific, Function.update_of_ne hut]) hthreads

end Effects

/-! ## Runs -/

section Runs

variable [DecidableEq τ]

/-- INTERNAL: **a step loses a state exactly when it does not keep it.**
SOURCE: signal/thread_state.rs:58-97, signal/handler.rs:30-61 -/
theorem lost_step (act : KeyAct τ) (s s' : Model.Keys τ) (h : KeysOk s ∧ Tidy s)
    (hstep : Keys.step act s = some s') : Lost s' ↔ Lost s ∨ ¬ KeepsState act s := by
  obtain ⟨hok, htidy⟩ := h
  have hkept (hkeeps : KeepsState act s) (hlost : Lost s' ↔ Lost s) :
      Lost s' ↔ Lost s ∨ ¬ KeepsState act s := by
    rw [or_iff_left (not_not.mpr hkeeps)]
    exact hlost
  cases step_move htidy hstep with
  | quiet hheap hspecific hthreads hkeeps =>
      refine hkept hkeeps (lost_congr hheap fun id u _ => ?_)
      unfold Referenced Possesses
      rw [hspecific, hthreads]
  | thread t th hheap hspecific hthreads hset hdestroying hlife hempty hkeeps =>
      exact hkept hkeeps (lost_congr hheap fun id u _ =>
        referenced_thread hthreads hspecific (fun k => hset k id) (by rw [hdestroying]) hlife)
  | lose t k id th hpc hheap hspecific hthreads hidle hdestroying hlife hkeeps =>
      refine iff_of_true ?_ (Or.inr hkeeps)
      have hthread := (hok.threads t).pc
      rw [hpc] at hthread
      obtain ⟨-, ⟨hid, hnowhere⟩, hnot⟩ := hthread
      refine ⟨id, t, hheap ▸ hid, ?_⟩
      rintro ⟨-, hpossesses⟩
      rcases (possesses_self hthreads).mp hpossesses with ⟨k', hk'⟩ | ⟨k', hk'⟩ | hdestroys
      · rw [hspecific] at hk'
        exact hnowhere k' hk'
      · rw [hidle] at hk'
        cases hk'
      · exact hnot (hdestroying ▸ hdestroys)
  | finish t hact hpc hdestroying hheap hspecific hthreads =>
      subst hact
      have hother {u : τ} {id : ℕ} (hut : u ≠ t) : Referenced s' u id ↔ Referenced s u id :=
        referenced_other hut (congrFun hspecific u) hthreads
      have hself (id : ℕ) : ¬ Referenced s' t id := by
        rintro ⟨hlife, -⟩
        rw [hthreads, Function.update_self] at hlife
        exact hlife rfl
      constructor
      · rintro ⟨id, u, hid, hnot⟩
        rw [hheap] at hid
        by_cases hut : u = t
        · subst hut
          by_cases hbefore : Referenced s u id
          · right
            intro hkeeps
            rcases hbefore.2 with ⟨k, hk⟩ | ⟨k, hk⟩ | hdestroys
            · exact hkeeps k id hk
            · rw [hpc] at hk
              cases hk
            · rw [hdestroying] at hdestroys
              cases hdestroys
          · exact Or.inl ⟨id, u, hid, hbefore⟩
        · exact Or.inl ⟨id, u, hid, fun href => hnot ((hother hut).mpr href)⟩
      · rintro (⟨id, u, hid, hnot⟩ | hkeeps)
        · refine ⟨id, u, hheap ▸ hid, ?_⟩
          by_cases hut : u = t
          · rw [hut]
            exact hself id
          · exact fun href => hnot ((hother hut).mp href)
        · -- the state that is left under the key
          have hleft : ∃ k id, s.specific t k = .state id := by
            by_contra hnone
            exact hkeeps fun k id hk => hnone ⟨k, id, hk⟩
          obtain ⟨k, id, hk⟩ := hleft
          exact ⟨id, t, hheap ▸ (hok.state t k id hk).2, hself id⟩
  | library t key value hkey hvalue hpc hheap hthreads hspecific hkeeps =>
      exact hkept hkeeps (lost_congr hheap fun id u _ =>
        library_referenced hok hkey hvalue hthreads hspecific u id)
  | alloc t k hpc hlife hheap hspecific hthreads hkeeps =>
      -- the new state is in the hands of its thread, and the others are where they were
      have hnew : Referenced s' t s.nextId := by
        refine ⟨?_, (possesses_self hthreads).mpr (Or.inr (Or.inl ⟨k, rfl⟩))⟩
        rw [hthreads, Function.update_self]
        exact hlife
      have hold {u : τ} {id : ℕ} (hne : id ≠ s.nextId) :
          Referenced s' u id ↔ Referenced s u id := by
        refine referenced_thread hthreads hspecific (fun k' => ?_) Iff.rfl Iff.rfl
        rw [hpc]
        simp [Ne.symm hne]
      refine hkept hkeeps ⟨?_, ?_⟩
      · rintro ⟨id, u, hid, hnot⟩
        rw [hheap] at hid
        by_cases hne : id = s.nextId
        · subst hne
          rw [Function.update_self] at hid
          cases hid
          exact absurd hnew hnot
        · rw [Function.update_of_ne hne] at hid
          exact ⟨id, u, hid, fun href => hnot ((hold hne).mpr href)⟩
      · rintro ⟨id, u, hid, hnot⟩
        have hne : id ≠ s.nextId := Nat.ne_of_lt (hok.fresh id u hid)
        refine ⟨id, u, ?_, fun href => hnot ((hold hne).mp href)⟩
        rw [hheap, Function.update_of_ne hne]
        exact hid
  | set t k i hpc hheap hspecific hthreads hkeeps =>
      exact hkept hkeeps (lost_congr hheap fun id u _ =>
        set_referenced htidy hpc hspecific hthreads u id)
  | cleanup t k d hpc hdestroying hlife hstate hheap hspecific hthreads hkeeps =>
      exact hkept hkeeps (lost_congr hheap fun id u _ =>
        cleanup_referenced hdestroying hstate hspecific hthreads u id)
  | destroy t i hdestroys hheap hspecific hthreads hkeeps =>
      -- the state that is freed was in the hands of its thread
      have hfreed : Referenced s t i := by
        refine ⟨fun hended => ?_, Or.inr (Or.inr hdestroys)⟩
        rw [htidy.ended t hended] at hdestroys
        cases hdestroys
      have hold {u : τ} {id : ℕ} (hne : id ≠ i) : Referenced s' u id ↔ Referenced s u id := by
        refine referenced_thread hthreads hspecific (fun _ => Iff.rfl) ?_ Iff.rfl
        rw [hdestroys]
        simp [Ne.symm hne]
      refine hkept hkeeps ⟨?_, ?_⟩
      · rintro ⟨id, u, hid, hnot⟩
        rw [hheap] at hid
        have hne : id ≠ i := by
          rintro rfl
          simp at hid
        rw [Function.update_of_ne hne] at hid
        exact ⟨id, u, hid, fun href => hnot ((hold hne).mpr href)⟩
      · rintro ⟨id, u, hid, hnot⟩
        have hne : id ≠ i := by
          rintro rfl
          rw [((hok.threads t).destroying id hdestroys).1] at hid
          cases hid
          exact hnot hfreed
        refine ⟨id, u, ?_, fun href => hnot ((hold hne).mp href)⟩
        rw [hheap, Function.update_of_ne hne]
        exact hid

/-- INTERNAL: every step keeps both invariants. -/
theorem owned_step (act : KeyAct τ) (s s' : Model.Keys τ) (h : KeysOk s ∧ Tidy s)
    (hstep : Keys.step act s = some s') : KeysOk s' ∧ Tidy s' :=
  ⟨h.1.step act s s' hstep, h.2.move (step_move h.2 hstep)⟩

omit [DecidableEq τ] in
/-- INTERNAL: **a handler that has loaded the key in time loses no state.** A thread that has a
state in hand has null under the key.
SOURCE: signal/handler.rs:37-61, signal/thread_state.rs:92-96 -/
theorem keeps_in_time {jumps : Bool} (hok : KeysOk s) (htidy : Tidy s)
    (hin : KeyInTime (.handlerState t jumps) s) : KeepsState (.handlerState t jumps) s := by
  cases jumps with
  | false => trivial
  | true =>
      intro k id hpc k' published rest hhandlers
      have hthread := (hok.threads t).pc
      rw [hpc] at hthread
      have hnull : s.specific t k = .null := htidy.empty t k (by rw [hpc]; rfl)
      -- the key that the handler has loaded is ours, if there is a value under it
      by_contra hvalue
      have hown : s.keys k' = some .own := by
        cases published with
        | true => exact (hok.threads t).handlers k' (by rw [hhandlers]; exact List.mem_cons_self)
        | false =>
            cases hptr : s.specific t k' with
            | null => exact absurd hptr hvalue
            | library ptr => exact absurd hptr (hin k' rest hhandlers ptr)
            | state id' => exact (hok.state t k' id' hptr).1
      rw [hok.unique k k' hthread.1 hown] at hnull
      exact hvalue hnull

/-- RESULT: **the ownership of the thread states.** In every order of key creations and sets of
other libraries, of `open`, of protected accesses, of thread starts and exits and of SIGBUS
deliveries, on any number of threads, `pthread_setspecific` failing or not: every pointer to a
state under a key of a thread is to one that this thread has allocated and that has not been freed,
no state is under two keys or of two threads, and no thread has two under keys; a destructor frees
a state of its own thread that has not been freed, when no pointer to it is left under any key.

Every state that has not been freed is within reach of its thread, which has not ended, if and only
if no `pthread_setspecific` of `get_or_init` has failed, no thread has ended with a state under a
key, and no handler has jumped out of `get_or_init` between the box and the key; a handler that has
loaded the key in time never does.
SOURCE: signal/thread_state.rs:36-97, signal/handler.rs:30-61 -/
theorem states_owned (acts : List (KeyAct τ)) (s : Model.Keys τ)
    (h : run Keys.step acts .init = some s) :
    (∀ t k id, s.specific t k = .state id → s.heap id = some t) ∧
    (∀ t t' k k' id, s.specific t k = .state id → s.specific t' k' = .state id →
      t = t' ∧ k = k') ∧
    (∀ t k k' id id', s.specific t k = .state id → s.specific t k' = .state id' → id = id') ∧
    (∀ t s', Keys.step (.destroy t) s = some s' → ∃ id, s.heap id = some t ∧
      s'.heap = Function.update s.heap id none ∧ ∀ u k, s'.specific u k ≠ .state id) ∧
    ((∀ id t, s.heap id = some t → Referenced s t id) ↔
      Along Keys.step KeepsState acts .init) ∧
    ∀ t jumps, KeyInTime (.handlerState t jumps) s → KeepsState (.handlerState t jumps) s := by
  have hinit : KeysOk (Keys.init : Model.Keys τ) ∧ Tidy (Keys.init : Model.Keys τ) :=
    ⟨keysOk_init, tidy_init⟩
  obtain ⟨hok, htidy⟩ := reach_invariant (fun s : Model.Keys τ => KeysOk s ∧ Tidy s) owned_step
    acts hinit h
  refine ⟨fun t k id hk => (hok.state t k id hk).2, ?_, ?_, ?_, ?_,
    fun t jumps hin => keeps_in_time hok htidy hin⟩
  · intro t t' k k' id hk hk'
    obtain ⟨hown, hheap⟩ := hok.state t k id hk
    obtain ⟨hown', hheap'⟩ := hok.state t' k' id hk'
    rw [hheap] at hheap'
    exact ⟨Option.some.inj hheap', hok.unique k k' hown hown'⟩
  · intro t k k' id id' hk hk'
    rw [hok.unique k k' (hok.state t k id hk).1 (hok.state t k' id' hk').1, hk'] at hk
    cases hk
    rfl
  · intro t s' hstep
    unfold Keys.step at hstep
    split at hstep
    · cases hstep
    · dsimp only [Keys.destroyStep] at hstep
      split at hstep
      · rename_i id hhandlers hid
        obtain ⟨hlive, hnowhere⟩ := (hok.threads t).destroying id hid
        cases hstep
        refine ⟨id, hlive, rfl, ?_⟩
        intro u k hk
        have hheap := (hok.state u k id hk).2
        rw [hlive] at hheap
        cases hheap
        exact hnowhere k hk
      · cases hstep
  · have hmark := run_mark (fun s : Model.Keys τ => KeysOk s ∧ Tidy s) Lost owned_step lost_step
      acts hinit h
    have hnone : ¬ Lost (Keys.init : Model.Keys τ) := by simp [Lost, Keys.init]
    rw [or_iff_right hnone] at hmark
    rw [← not_iff_not, ← hmark]
    simp [Lost]

end Runs

/-- A thread makes its state, takes a SIGBUS in a protected access, and exits. -/
def lifeOfState : List (KeyAct Unit) :=
  [.spawn (), .access (), .next (), .create () 5, .next (), .next (), .next (), .next (),
    .next (), .next (), .sigbus (), .handlerKey (), .handlerState () true, .exit (),
    .cleanup () 5]

/-- After `lifeOfState` the state is not under the key any more and about to be freed, and the
destructor frees it. -/
theorem states_owned_lifeOfState :
    ∃ s s', run Keys.step lifeOfState .init = some s ∧ Keys.step (.destroy ()) s = some s' ∧
      Referenced s () 0 ∧
      ∃ id, s.heap id = some () ∧ s'.heap = Function.update s.heap id none := by
  have hkeeps : Along Keys.step KeepsState lifeOfState .init := by
    refine along_cons trivial rfl (along_cons trivial rfl (along_cons trivial rfl
      (along_cons trivial rfl (along_cons trivial rfl (along_cons trivial rfl
      (along_cons trivial rfl (along_cons trivial rfl (along_cons trivial rfl
      (along_cons trivial rfl (along_cons trivial rfl (along_cons trivial rfl
      (along_cons ?_ rfl (along_cons trivial rfl (along_cons trivial rfl trivial))))))))))))))
    -- the handler comes when the thread is outside of `get_or_init`
    intro k id hpc
    cases hpc
  obtain ⟨-, -, -, hdestroy, hkept, -⟩ := states_owned lifeOfState _ rfl
  obtain ⟨id, hlive, hheap, -⟩ := hdestroy () _ rfl
  exact ⟨_, _, rfl, rfl, hkept.mpr hkeeps 0 () rfl, id, hlive, hheap⟩

/-- A state that `pthread_setspecific` does not take is lost. -/
example : (run Keys.step [.spawn (), .access (), .next (), .create () 5, .next (), .next (),
    .next (), .next (), .next (), .setFails ()] (Keys.init : Model.Keys Unit)).map
      (fun s => (s.heap 0, s.specific () 5, (s.threads ()).pc)) =
    some (some (), .null, .idle) := rfl

end MmapShield.Analysis.States
