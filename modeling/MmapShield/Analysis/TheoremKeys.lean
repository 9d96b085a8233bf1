import MmapShield.Computation.Machine
import MmapShield.Model.Keys

/-!
# Whose state the handler uses

Every state under the key belongs to the thread that it is set for, and has not been destroyed:
`KeysOk`. So a handler goes wrong only where it has loaded the key before it was published, which
is 0 and can be the key of another library (`KeyInTime`).

`Held` is a state that a thread has in its hands and not under a key, before it is set or before
its destructor runs.
-/

set_option autoImplicit false

namespace MmapShield.Analysis.Keys

open MmapShield.Computation MmapShield.Model

variable {τ : Type}

/-- A state of the thread that has not been destroyed and is not under a key. -/
def Held (s : Model.Keys τ) (t : τ) (id : ℕ) : Prop :=
  s.heap id = some t ∧ ∀ k, s.specific t k ≠ .state id

/-- What a thread relies on at each point of `get_or_init`. -/
def PcOk (s : Model.Keys τ) (t : τ) (destroying : Option ℕ) : InitPc → Prop
  | .idle | .callOnce => True
  | .create => s.keyInit = .running t ∧ ∀ k, s.keys k ≠ some .own
  | .store k => s.keyInit = .running t ∧ s.keys k = some .own
  | .complete => s.keyInit = .running t ∧ s.published = true
  | .load => s.published = true
  | .get k | .alloc k => s.keys k = some .own
  | .set k id => s.keys k = some .own ∧ Held s t id ∧ destroying ≠ some id

/-- What holds for a thread. -/
structure ThreadOk (s : Model.Keys τ) (t : τ) (th : KeyThread) : Prop where
  pc : PcOk s t th.destroying th.pc
  handlers : ∀ k, .loaded k true ∈ th.handlers → s.keys k = some .own
  destroying : ∀ id, th.destroying = some id → Held s t id

/-- The invariant. -/
structure KeysOk (s : Model.Keys τ) : Prop where
  unique : ∀ k k', s.keys k = some .own → s.keys k' = some .own → k = k'
  uncreated : s.keyInit = .new → ∀ k, s.keys k ≠ some .own
  published : s.published = true → s.keys s.threadStateKey = some .own
  completed : s.keyInit = .complete → s.published = true
  library : ∀ t k ptr, s.specific t k = .library ptr → s.keys k = some .library
  state : ∀ t k id, s.specific t k = .state id → s.keys k = some .own ∧ s.heap id = some t
  fresh : ∀ id t, s.heap id = some t → id < s.nextId
  threads : ∀ t, ThreadOk s t (s.threads t)

/-- INTERNAL: the invariant holds before the first call. -/
theorem keysOk_init : KeysOk (Keys.init : Model.Keys τ) where
  unique := by simp [Keys.init]
  uncreated := by simp [Keys.init]
  published := by simp [Keys.init]
  completed := by simp [Keys.init]
  library := by simp [Keys.init]
  state := by simp [Keys.init]
  fresh := by simp [Keys.init]
  threads := fun _ => ⟨trivial, by simp [Keys.init], by simp [Keys.init]⟩

section Effects

variable {s s' : Model.Keys τ} {t : τ} {th : KeyThread}

/-- INTERNAL: what a change elsewhere leaves of a thread. -/
theorem ThreadOk.frame (h : ThreadOk s t th)
    (hown : ∀ k, s.keys k = some .own → s'.keys k = some .own)
    (hrun : s.keyInit = .running t → s'.keyInit = .running t ∧
      ((∀ k, s.keys k ≠ some .own) → ∀ k, s'.keys k ≠ some .own))
    (hpub : s.published = true → s'.published = true)
    (hheld : ∀ id, Held s t id → Held s' t id) : ThreadOk s' t th := by
  refine ⟨?_, fun k hmem => hown k (h.handlers k hmem),
    fun id hid => hheld id (h.destroying id hid)⟩
  have hpc := h.pc
  cases hth : th.pc with
  | idle => trivial
  | callOnce => trivial
  | create =>
    rw [hth] at hpc
    exact ⟨(hrun hpc.1).1, (hrun hpc.1).2 hpc.2⟩
  | store k =>
    rw [hth] at hpc
    exact ⟨(hrun hpc.1).1, hown k hpc.2⟩
  | complete =>
    rw [hth] at hpc
    exact ⟨(hrun hpc.1).1, hpub hpc.2⟩
  | load =>
    rw [hth] at hpc
    exact hpub hpc
  | get k =>
    rw [hth] at hpc
    exact hown k hpc
  | alloc k =>
    rw [hth] at hpc
    exact hown k hpc
  | set k id =>
    rw [hth] at hpc
    exact ⟨hown k hpc.1, hheld id hpc.2.1, hpc.2.2⟩

/-- INTERNAL: changes that the invariant does not look at. -/
theorem KeysOk.flags (h : KeysOk s) (installed dead : Bool) (derefs : List (Deref τ)) :
    KeysOk { s with installed := installed, dead := dead, derefs := derefs } := by
  refine ⟨h.unique, h.uncreated, h.published, h.completed, h.library, h.state, h.fresh, ?_⟩
  intro t
  exact (h.threads t).frame (fun _ hk => hk) (fun hr => ⟨hr, fun hk => hk⟩) (fun hp => hp)
    (fun _ hh => hh)

/-- INTERNAL: a key in use stays as it is when one that is not is created. -/
theorem keys_keep {k k' : ℕ} {o o' : KeyOwner} (hfree : s.keys k = none)
    (hk' : s.keys k' = some o) : Function.update s.keys k (some o') k' = some o := by
  have hne : k' ≠ k := by
    rintro rfl
    rw [hfree] at hk'
    cases hk'
  rw [Function.update_of_ne hne]
  exact hk'

/-- INTERNAL: another library creates a key.
SOURCE: signal/thread_state.rs:80 -/
theorem KeysOk.libraryCreate (h : KeysOk s) {k : ℕ} (hfree : s.keys k = none) :
    KeysOk { s with keys := Function.update s.keys k (some .library) } := by
  have hback {k' : ℕ} (hk' : Function.update s.keys k (some .library) k' = some .own) :
      s.keys k' = some .own := by
    by_cases heq : k' = k
    · subst heq
      simp at hk'
    · simpa [heq] using hk'
  refine ⟨?_, ?_, ?_, h.completed, ?_, ?_, h.fresh, ?_⟩
  · intro k₁ k₂ h₁ h₂
    exact h.unique k₁ k₂ (hback h₁) (hback h₂)
  · intro hnew k' hk'
    exact h.uncreated hnew k' (hback hk')
  · intro hp
    exact keys_keep hfree (h.published hp)
  · intro t' k' ptr hk'
    exact keys_keep hfree (h.library t' k' ptr hk')
  · intro t' k' id hk'
    exact ⟨keys_keep hfree (h.state t' k' id hk').1, (h.state t' k' id hk').2⟩
  · intro t'
    apply (h.threads t').frame
    · exact fun _ hk' => keys_keep hfree hk'
    · exact fun hr => ⟨hr, fun hnone k' hk' => hnone k' (hback hk')⟩
    · exact fun hp => hp
    · exact fun _ hh => hh

variable [DecidableEq τ]

/-- INTERNAL: a change of one thread. -/
theorem KeysOk.setThread (h : KeysOk s) (hth : ThreadOk s t th) : KeysOk (s.setThread t th) := by
  refine ⟨h.unique, h.uncreated, h.published, h.completed, h.library, h.state, h.fresh, ?_⟩
  intro t'
  have hframe {th' : KeyThread} (hok : ThreadOk s t' th') : ThreadOk (s.setThread t th) t' th' :=
    hok.frame (fun _ hk => hk) (fun hr => ⟨hr, fun hk => hk⟩) (fun hp => hp) (fun _ hh => hh)
  by_cases heq : t' = t
  · subst heq
    simpa [Keys.setThread] using hframe hth
  · simpa [Keys.setThread, heq] using hframe (h.threads t')

/-- INTERNAL: a thread goes on in `get_or_init`. -/
theorem KeysOk.goto (h : KeysOk s) {pc : InitPc} (hpc : PcOk s t (s.threads t).destroying pc) :
    KeysOk (s.goto t pc) :=
  h.setThread ⟨hpc, (h.threads t).handlers, (h.threads t).destroying⟩

/-- INTERNAL: a thread outside of `get_or_init` sets a value.
SOURCE: signal/thread_state.rs:93-95 -/
theorem KeysOk.setSpecific (h : KeysOk s) {k : ℕ} {v : KeyValue}
    (hpc : (s.threads t).pc = .idle)
    (hlibrary : ∀ ptr, v = .library ptr → s.keys k = some .library)
    (hstate : ∀ id, v = .state id → s.keys k = some .own ∧ s.heap id = some t ∧
      (s.threads t).destroying ≠ some id) : KeysOk (s.setSpecific t k v) := by
  have hvalue {t' : τ} {k' : ℕ} {v' : KeyValue}
      (hv' : (s.setSpecific t k v).specific t' k' = v') :
      s.specific t' k' = v' ∨ (t' = t ∧ k' = k ∧ v = v') := by
    by_cases ht : t' = t
    · subst ht
      by_cases hk : k' = k
      · subst hk
        right
        simpa [Keys.setSpecific] using hv'
      · left
        simpa [Keys.setSpecific, hk] using hv'
    · left
      simpa [Keys.setSpecific, ht] using hv'
  have hheld {t' : τ} {id : ℕ} (hh : Held s t' id) (hne : t' = t → v ≠ .state id) :
      Held (s.setSpecific t k v) t' id := by
    refine ⟨hh.1, ?_⟩
    intro k' hk'
    rcases hvalue hk' with hold | ⟨ht, -, hv⟩
    · exact hh.2 k' hold
    · exact hne ht hv
  refine ⟨h.unique, h.uncreated, h.published, h.completed, ?_, ?_, h.fresh, ?_⟩
  · intro t' k' ptr hk'
    rcases hvalue hk' with hold | ⟨-, rfl, hv⟩
    · exact h.library t' k' ptr hold
    · exact hlibrary ptr hv
  · intro t' k' id hk'
    rcases hvalue hk' with hold | ⟨rfl, rfl, hv⟩
    · exact h.state t' k' id hold
    · exact ⟨(hstate id hv).1, (hstate id hv).2.1⟩
  · intro t'
    change ThreadOk _ t' (s.threads t')
    by_cases ht : t' = t
    · subst ht
      refine ⟨?_, (h.threads t').handlers, ?_⟩
      · rw [hpc]
        trivial
      · intro id hid
        apply hheld ((h.threads t').destroying id hid)
        intro _ hv
        exact (hstate id hv).2.2 hid
    · apply (h.threads t').frame
      · exact fun _ hk' => hk'
      · exact fun hr => ⟨hr, fun hk' => hk'⟩
      · exact fun hp => hp
      · exact fun id hh => hheld hh fun heq => absurd heq ht

/-- INTERNAL: `KEY_INIT` runs its closure in this thread.
SOURCE: signal/thread_state.rs:78 -/
theorem KeysOk.callOnce (h : KeysOk s) (hnew : s.keyInit = .new) :
    KeysOk (Keys.goto { s with keyInit := .running t } t .create) := by
  have hrunning : KeysOk { s with keyInit := .running t } := by
    refine ⟨h.unique, ?_, h.published, ?_, h.library, h.state, h.fresh, ?_⟩
    · intro hfalse
      cases hfalse
    · intro hfalse
      cases hfalse
    · intro t'
      refine (h.threads t').frame (fun _ hk => hk) ?_ (fun hp => hp) (fun _ hh => hh)
      intro hr
      rw [hnew] at hr
      cases hr
  exact hrunning.goto ⟨rfl, h.uncreated hnew⟩

/-- INTERNAL: the closure of `KEY_INIT` ends, or its assertion fails.
SOURCE: signal/thread_state.rs:81-83 -/
theorem KeysOk.endOnce (h : KeysOk s) (hrun : s.keyInit = .running t) {once : OnceState τ}
    (hnew : once ≠ .new) (hdone : once = .complete → s.published = true) {pc : InitPc}
    (hpc : PcOk { s with keyInit := once } t (s.threads t).destroying pc) :
    KeysOk (Keys.goto { s with keyInit := once } t pc) := by
  refine ⟨h.unique, fun h' => absurd h' hnew, h.published, hdone, h.library, h.state, h.fresh, ?_⟩
  intro t'
  by_cases ht : t' = t
  · subst ht
    simp only [Keys.goto, Keys.setThread, Function.update_self]
    exact ⟨hpc, (h.threads t').handlers, (h.threads t').destroying⟩
  · simp only [Keys.goto, Keys.setThread, Function.update_of_ne ht]
    refine (h.threads t').frame (fun _ hk => hk) ?_ (fun hp => hp) (fun _ hh => hh)
    intro hr
    rw [hrun] at hr
    cases hr
    exact absurd rfl ht

/-- INTERNAL: **the key is created.**
SOURCE: signal/thread_state.rs:80 -/
theorem KeysOk.create (h : KeysOk s) (hpc : (s.threads t).pc = .create) {k : ℕ}
    (hfree : s.keys k = none) :
    KeysOk (Keys.goto { s with keys := Function.update s.keys k (some .own) } t (.store k)) := by
  have hthread := (h.threads t).pc
  rw [hpc] at hthread
  obtain ⟨hrun, hnone⟩ := hthread
  have honly {k' : ℕ} (hk' : Function.update s.keys k (some .own) k' = some .own) : k' = k := by
    by_contra hne
    rw [Function.update_of_ne hne] at hk'
    exact hnone k' hk'
  refine ⟨?_, ?_, ?_, h.completed, ?_, ?_, h.fresh, ?_⟩
  · intro k₁ k₂ h₁ h₂
    rw [honly h₁, honly h₂]
  · intro hnew
    rw [show s.keyInit = .new from hnew] at hrun
    cases hrun
  · intro hp
    exact keys_keep hfree (h.published hp)
  · intro t' k' ptr hk'
    exact keys_keep hfree (h.library t' k' ptr hk')
  · intro t' k' id hk'
    exact ⟨keys_keep hfree (h.state t' k' id hk').1, (h.state t' k' id hk').2⟩
  · intro t'
    by_cases ht : t' = t
    · subst ht
      simp only [Keys.goto, Keys.setThread, Function.update_self]
      refine ⟨⟨hrun, Function.update_self _ _ _⟩, ?_, (h.threads t').destroying⟩
      intro k' hmem
      exact keys_keep hfree ((h.threads t').handlers k' hmem)
    · simp only [Keys.goto, Keys.setThread, Function.update_of_ne ht]
      refine (h.threads t').frame (fun _ hk' => keys_keep hfree hk') ?_ (fun hp => hp)
        (fun _ hh => hh)
      intro hr
      rw [hrun] at hr
      cases hr
      exact absurd rfl ht

/-- INTERNAL: **the key is published.**
SOURCE: signal/thread_state.rs:82 -/
theorem KeysOk.store (h : KeysOk s) {k : ℕ} (hpc : (s.threads t).pc = .store k) :
    KeysOk (Keys.goto { s with threadStateKey := k, published := true } t .complete) := by
  have hthread := (h.threads t).pc
  rw [hpc] at hthread
  have hpublished : KeysOk { s with threadStateKey := k, published := true } := by
    refine ⟨h.unique, h.uncreated, fun _ => hthread.2, fun _ => rfl, h.library, h.state,
      h.fresh, ?_⟩
    intro t'
    exact (h.threads t').frame (fun _ hk => hk) (fun hr => ⟨hr, fun hk => hk⟩) (fun _ => rfl)
      (fun _ hh => hh)
  exact hpublished.goto ⟨hthread.1, rfl⟩

/-- INTERNAL: **a state is allocated.**
SOURCE: signal/thread_state.rs:92 -/
theorem KeysOk.alloc (h : KeysOk s) {k : ℕ} (hpc : (s.threads t).pc = .alloc k) :
    KeysOk (Keys.goto { s with
      heap := Function.update s.heap s.nextId (some t), nextId := s.nextId + 1 } t
      (.set k s.nextId)) := by
  have hthread := (h.threads t).pc
  rw [hpc] at hthread
  have hkeep {id : ℕ} {t' : τ} (hid : s.heap id = some t') :
      Function.update s.heap s.nextId (some t) id = some t' := by
    rw [Function.update_of_ne (Nat.ne_of_lt (h.fresh id t' hid))]
    exact hid
  have hallocated : KeysOk { s with
      heap := Function.update s.heap s.nextId (some t), nextId := s.nextId + 1 } := by
    refine ⟨h.unique, h.uncreated, h.published, h.completed, h.library, ?_, ?_, ?_⟩
    · intro t' k' id hk'
      exact ⟨(h.state t' k' id hk').1, hkeep (h.state t' k' id hk').2⟩
    · intro id t' hid
      by_cases heq : id = s.nextId
      · rw [heq]
        exact Nat.lt_succ_self _
      · change Function.update s.heap s.nextId (some t) id = some t' at hid
        rw [Function.update_of_ne heq] at hid
        exact Nat.lt_succ_of_lt (h.fresh id t' hid)
    · intro t'
      exact (h.threads t').frame (fun _ hk' => hk') (fun hr => ⟨hr, fun hk' => hk'⟩)
        (fun hp => hp) (fun _ hh => ⟨hkeep hh.1, hh.2⟩)
  refine hallocated.goto ⟨hthread, ⟨Function.update_self _ _ _, ?_⟩, ?_⟩
  · intro k' hk'
    exact Nat.lt_irrefl _ (h.fresh _ t (h.state t k' _ hk').2)
  · intro hdestroying
    exact Nat.lt_irrefl _ (h.fresh _ t ((h.threads t).destroying _ hdestroying).1)

/-- INTERNAL: **a state is destroyed**, which no key leads to any more.
SOURCE: signal/thread_state.rs:59-63 -/
theorem KeysOk.destroy (h : KeysOk s) {id : ℕ} (hid : (s.threads t).destroying = some id) :
    KeysOk (Keys.setThread { s with heap := Function.update s.heap id none } t
      { s.threads t with destroying := none }) := by
  obtain ⟨hheap, hnokey⟩ := (h.threads t).destroying id hid
  have hkeep {id' : ℕ} {t' : τ} (hid' : s.heap id' = some t') (hne : t' = t → id' ≠ id) :
      Function.update s.heap id none id' = some t' := by
    have hother : id' ≠ id := by
      rintro rfl
      rw [hheap] at hid'
      exact hne (Option.some.inj hid').symm rfl
    rw [Function.update_of_ne hother]
    exact hid'
  refine ⟨h.unique, h.uncreated, h.published, h.completed, h.library, ?_, ?_, ?_⟩
  · intro t' k' id' hk'
    refine ⟨(h.state t' k' id' hk').1, hkeep (h.state t' k' id' hk').2 ?_⟩
    rintro rfl rfl
    exact hnokey k' hk'
  · intro id' t' hid'
    change Function.update s.heap id none id' = some t' at hid'
    by_cases heq : id' = id
    · subst heq
      simp at hid'
    · rw [Function.update_of_ne heq] at hid'
      exact h.fresh id' t' hid'
  · intro t'
    by_cases ht : t' = t
    · subst ht
      simp only [Keys.setThread, Function.update_self]
      refine ⟨?_, (h.threads t').handlers, by simp⟩
      have hpc := (h.threads t').pc
      cases hth : (s.threads t').pc with
      | set k id' =>
        rw [hth] at hpc
        refine ⟨hpc.1, ⟨hkeep hpc.2.1.1 ?_, hpc.2.1.2⟩, by simp⟩
        rintro - rfl
        exact hpc.2.2 hid
      | _ =>
        rw [hth] at hpc
        exact hpc
    · simp only [Keys.setThread, Function.update_of_ne ht]
      exact (h.threads t').frame (fun _ hk' => hk') (fun hr => ⟨hr, fun hk' => hk'⟩)
        (fun hp => hp) (fun _ hh => ⟨hkeep hh.1 fun heq => absurd heq ht, hh.2⟩)

end Effects

/-! ## One step -/

section Steps

variable [DecidableEq τ] {s s' : Model.Keys τ} {t : τ}

/-- INTERNAL: a step of `get_or_init`.
SOURCE: signal/thread_state.rs:77-97 -/
theorem KeysOk.next (h : KeysOk s) (hstep : s.nextStep t = some s') : KeysOk s' := by
  have hthread := (h.threads t).pc
  unfold Keys.nextStep at hstep
  cases hpc : (s.threads t).pc with
  | idle | create =>
    simp only [hpc] at hstep
    cases hstep
  | callOnce =>
    simp only [hpc] at hstep
    cases honce : s.keyInit with
    | new =>
      simp only [honce] at hstep
      cases hstep
      exact h.callOnce honce
    | running t' =>
      simp only [honce] at hstep
      cases hstep
    | complete =>
      simp only [honce] at hstep
      cases hstep
      exact h.goto (h.completed honce)
    | poisoned =>
      simp only [honce] at hstep
      cases hstep
      exact h.goto trivial
  | store k =>
    simp only [hpc] at hstep
    cases hstep
    exact h.store hpc
  | complete =>
    simp only [hpc] at hstep hthread
    cases hstep
    exact h.endOnce hthread.1 (by simp) (fun _ => hthread.2) hthread.2
  | load =>
    simp only [hpc] at hstep hthread
    cases hstep
    exact h.goto (h.published hthread)
  | get k =>
    simp only [hpc] at hstep hthread
    split at hstep
    · cases hstep
      exact h.goto hthread
    · cases hstep
      exact h.goto trivial
  | alloc k =>
    simp only [hpc] at hstep
    cases hstep
    exact h.alloc hpc
  | set k id =>
    simp only [hpc] at hstep hthread
    cases hstep
    have hidle : KeysOk (s.goto t .idle) := h.goto trivial
    -- the state is set after the thread has left `get_or_init`, which is the same state
    have hset : KeysOk ((s.goto t .idle).setSpecific t k (.state id)) := by
      apply hidle.setSpecific
      · simp [Keys.goto, Keys.setThread]
      · simp
      · intro id' hid'
        cases hid'
        refine ⟨hthread.1, hthread.2.1.1, ?_⟩
        simpa [Keys.goto, Keys.setThread] using hthread.2.2
    exact hset

/-- INTERNAL: **`pthread_key_create` keeps the invariant**, whether it returns a key or fails.
SOURCE: signal/thread_state.rs:80-81 -/
theorem KeysOk.createStep (h : KeysOk s) {key : Option ℕ}
    (hstep : s.createStep t key = some s') : KeysOk s' := by
  unfold Keys.createStep at hstep
  split at hstep
  · rename_i hpc
    split at hstep
    · rename_i hfree
      cases hstep
      exact h.create hpc hfree
    · cases hstep
  · rename_i hpc
    have hthread := (h.threads t).pc
    rw [hpc] at hthread
    cases hstep
    exact h.endOnce hthread.1 (by simp) (by simp) trivial
  · cases hstep

/-- INTERNAL: a value of an exiting thread is set to null.
SOURCE: signal/thread_state.rs:58-63 -/
theorem KeysOk.cleanup (h : KeysOk s) {k : ℕ} (hpc : (s.threads t).pc = .idle)
    (hstep : s.cleanupStep t k = some s') : KeysOk s' := by
  have hnull : KeysOk (s.setSpecific t k .null) := h.setSpecific hpc (by simp) (by simp)
  unfold Keys.cleanupStep at hstep
  split at hstep
  · cases hstep
  · cases hstep
    exact hnull
  · rename_i id hvalue
    cases hstep
    obtain ⟨hown, hheap⟩ := h.state t k id hvalue
    apply hnull.setThread
    refine ⟨?_, (h.threads t).handlers, ?_⟩
    · rw [hpc]
      trivial
    · intro id' hid'
      cases hid'
      refine ⟨hheap, ?_⟩
      -- the thread has its state under one key only
      intro k' hk'
      by_cases heq : k' = k
      · subst heq
        simp [Keys.setSpecific] at hk'
      · have hk : s.specific t k' = .state id := by
          simpa [Keys.setSpecific, heq] using hk'
        exact heq (h.unique k' k (h.state t k' id hk).1 hown)

/-- INTERNAL: the value is not set, and `get_or_init` returns.
SOURCE: signal/thread_state.rs:93-96 -/
theorem KeysOk.setFails (h : KeysOk s) (hstep : s.setFailsStep t = some s') : KeysOk s' := by
  unfold Keys.setFailsStep at hstep
  split at hstep
  · cases hstep
    exact h.goto trivial
  · cases hstep

/-- INTERNAL: SIGBUS is delivered.
SOURCE: signal/handler.rs:82-96 -/
theorem KeysOk.sigbus (h : KeysOk s) (hstep : s.sigbusStep t = some s') : KeysOk s' := by
  unfold Keys.sigbusStep at hstep
  dsimp only at hstep
  split at hstep
  · split at hstep
    · cases hstep
      apply h.setThread
      refine ⟨(h.threads t).pc, ?_, (h.threads t).destroying⟩
      intro k hmem
      rcases List.mem_cons.mp hmem with hfirst | hrest
      · cases hfirst
      · exact (h.threads t).handlers k hrest
    · cases hstep
      exact h.flags _ _ _
  · cases hstep

/-- INTERNAL: **the handler loads the key.** A key that has been published is ours.
SOURCE: signal/handler.rs:37, signal/thread_state.rs:69-71 -/
theorem KeysOk.handlerKey (h : KeysOk s) (hstep : s.handlerKeyStep t = some s') : KeysOk s' := by
  unfold Keys.handlerKeyStep at hstep
  split at hstep
  · rename_i rest hhandlers
    cases hstep
    apply h.setThread
    refine ⟨(h.threads t).pc, ?_, (h.threads t).destroying⟩
    intro k hmem
    rcases List.mem_cons.mp hmem with hfirst | hrest
    · simp only [HandlerPc.loaded.injEq] at hfirst
      rw [hfirst.1]
      exact h.published hfirst.2.symm
    · apply (h.threads t).handlers
      rw [hhandlers]
      exact List.mem_cons_of_mem _ hrest
  · cases hstep

/-- INTERNAL: the handler uses the value, and jumps or raises the signal again.
SOURCE: signal/handler.rs:37-61 -/
theorem KeysOk.handlerState (h : KeysOk s) {jumps : Bool}
    (hstep : s.handlerStateStep t jumps = some s') : KeysOk s' := by
  have hused (d : List (Deref τ)) : KeysOk { s with derefs := d } := h.flags _ _ _
  unfold Keys.handlerStateStep at hstep
  split at hstep
  · split at hstep
    · cases hstep
      exact h.flags _ _ _
    · split at hstep
      · cases hstep
        exact (hused _).setThread ⟨trivial, by simp, ((hused _).threads t).destroying⟩
      · cases hstep
        exact h.flags _ _ _
  · cases hstep

/-- INTERNAL: **every step keeps the invariant.** -/
theorem KeysOk.step (act : KeyAct τ) (s s' : Model.Keys τ) (h : KeysOk s)
    (hstep : Keys.step act s = some s') : KeysOk s' := by
  unfold Keys.step at hstep
  split at hstep
  · cases hstep
  · cases act with
    | spawn t | exit t | finish t =>
      dsimp only at hstep
      split at hstep
      · cases hstep
        have hthread := h.threads t
        exact h.setThread ⟨hthread.pc, hthread.handlers, hthread.destroying⟩
      · cases hstep
    | libraryCreate key =>
      dsimp only at hstep
      split at hstep
      · rename_i hfree
        cases hstep
        exact h.libraryCreate hfree
      · cases hstep
    | librarySet t key ptr =>
      dsimp only at hstep
      split at hstep
      · rename_i hguard
        cases hstep
        apply h.setSpecific hguard.2.1
        · exact fun _ _ => hguard.2.2
        · intro id hid
          cases ptr <;> cases hid
      · cases hstep
    | openMapping t =>
      dsimp only at hstep
      split at hstep
      · cases hstep
        exact h.flags _ _ _
      · cases hstep
    | access t =>
      dsimp only at hstep
      split at hstep
      · cases hstep
        have hinstalled : KeysOk { s with installed := true } := h.flags _ _ _
        exact hinstalled.goto trivial
      · cases hstep
    | next t =>
      dsimp only at hstep
      split at hstep
      · exact h.next hstep
      · cases hstep
    | create t key | createFails t =>
      dsimp only at hstep
      split at hstep
      · exact h.createStep hstep
      · cases hstep
    | setFails t =>
      dsimp only at hstep
      split at hstep
      · exact h.setFails hstep
      · cases hstep
    | cleanup t key =>
      dsimp only at hstep
      split at hstep
      · rename_i hguard
        exact h.cleanup hguard.2.1 hstep
      · cases hstep
    | destroy t =>
      dsimp only [Keys.destroyStep] at hstep
      split at hstep
      · rename_i hid
        cases hstep
        exact h.destroy hid
      · cases hstep
    | sigbus t => exact h.sigbus hstep
    | handlerKey t => exact h.handlerKey hstep
    | handlerState t jumps => exact h.handlerState hstep

end Steps

/-! ## What the handler dereferences -/

/-- What the code needs of a handler that looks up the value of its thread: it has loaded the key
after it was published, or no other library has set a value under the key that it has loaded. -/
def KeyInTime : KeyAct τ → Model.Keys τ → Prop
  | .handlerState t _, s => ∀ k rest, (s.threads t).handlers = .loaded k false :: rest →
    ∀ ptr, s.specific t k ≠ .library ptr
  | _, _ => True

/-- A handler has dereferenced a pointer that is not one to a state of its thread. -/
def Misused (s : Model.Keys τ) : Prop := ∃ d ∈ s.derefs, d.allocator ≠ some d.thread

section Runs

variable [DecidableEq τ] {s s' : Model.Keys τ}

/-- INTERNAL: only the handler dereferences. -/
theorem step_derefs {act : KeyAct τ} (hother : ∀ t jumps, act ≠ .handlerState t jumps)
    (hstep : Keys.step act s = some s') : s'.derefs = s.derefs := by
  unfold Keys.step at hstep
  split at hstep
  · cases hstep
  · cases act with
    | handlerState t jumps => exact absurd rfl (hother t jumps)
    | next t =>
      dsimp only [Keys.nextStep] at hstep
      repeat' split at hstep
      all_goals cases hstep
      all_goals rfl
    | create t key | createFails t =>
      dsimp only [Keys.createStep] at hstep
      repeat' split at hstep
      all_goals cases hstep
      all_goals rfl
    | cleanup t key =>
      dsimp only [Keys.cleanupStep] at hstep
      repeat' split at hstep
      all_goals cases hstep
      all_goals rfl
    | destroy t | sigbus t | handlerKey t | setFails t =>
      dsimp only [Keys.destroyStep, Keys.sigbusStep, Keys.handlerKeyStep, Keys.setFailsStep]
        at hstep
      repeat' split at hstep
      all_goals cases hstep
      all_goals rfl
    | _ =>
      dsimp only at hstep
      split at hstep
      · cases hstep
        rfl
      · cases hstep

/-- INTERNAL: what a handler dereferences.
SOURCE: signal/handler.rs:37-44 -/
theorem handlerState_derefs {t : τ} {jumps : Bool}
    (hstep : Keys.step (.handlerState t jumps) s = some s') :
    ∃ k published rest, (s.threads t).handlers = .loaded k published :: rest ∧
      (s.specific t k = .null ∧ s'.derefs = s.derefs ∨
        s.specific t k ≠ .null ∧
          s'.derefs = s.derefs ++ [⟨t, s.specific t k, s.allocator (s.specific t k)⟩]) := by
  unfold Keys.step at hstep
  split at hstep
  · cases hstep
  · dsimp only [Keys.handlerStateStep] at hstep
    split at hstep
    · rename_i k published rest hhandlers
      refine ⟨k, published, rest, hhandlers, ?_⟩
      split at hstep
      · rename_i hnull
        cases hstep
        exact Or.inl ⟨hnull, rfl⟩
      · rename_i hvalue
        refine Or.inr ⟨hvalue, ?_⟩
        split at hstep
        · cases hstep
          rfl
        · cases hstep
          rfl
    · cases hstep

/-- INTERNAL: **a step misuses a pointer exactly when its handler has loaded the key too early**
and another library's value is under it.
SOURCE: signal/handler.rs:37-44 -/
theorem step_misused (act : KeyAct τ) (s s' : Model.Keys τ) (h : KeysOk s)
    (hstep : Keys.step act s = some s') : Misused s' ↔ Misused s ∨ ¬ KeyInTime act s := by
  have hquiet (hderefs : s'.derefs = s.derefs) (hin : KeyInTime act s) :
      Misused s' ↔ Misused s ∨ ¬ KeyInTime act s := by
    rw [Misused, hderefs]
    simp [Misused, hin]
  cases act with
  | handlerState t jumps =>
    obtain ⟨k, published, rest, hhandlers, ⟨hnull, hderefs⟩ | ⟨hvalue, hderefs⟩⟩ :=
      handlerState_derefs hstep
    · apply hquiet hderefs
      intro k' rest' hhandlers' ptr hptr
      rw [hhandlers] at hhandlers'
      cases hhandlers'
      rw [hnull] at hptr
      cases hptr
    · have hmore : Misused s' ↔
          Misused s ∨ s.allocator (s.specific t k) ≠ some t := by
        simp [Misused, hderefs, or_and_right, exists_or]
      rw [hmore]
      refine or_congr_right ?_
      cases hptr : s.specific t k with
      | null => exact absurd hptr hvalue
      | state id =>
        -- a state under a key is one of the thread that looks
        refine iff_of_false ?_ ?_
        · simp [Keys.allocator, (h.state t k id hptr).2]
        · rw [not_not]
          intro k' rest' hhandlers' ptr hptr'
          rw [hhandlers] at hhandlers'
          cases hhandlers'
          rw [hptr] at hptr'
          cases hptr'
      | library ptr =>
        refine iff_of_true ?_ ?_
        · simp [Keys.allocator]
        · intro hin
          cases published with
          | false => exact hin k rest hhandlers ptr hptr
          | true =>
            have hown := (h.threads t).handlers k (by rw [hhandlers]; exact List.mem_cons_self)
            rw [h.library t k ptr hptr] at hown
            cases hown
  | _ =>
    apply hquiet _ trivial
    apply step_derefs _ hstep
    simp

/-- RESULT: **the handler uses only states of its own thread exactly when it has not loaded the
key too early.** In every order of key creations and sets of other libraries, of `open`, of
protected accesses, of thread starts and exits and of SIGBUS deliveries, on any number of threads:
every pointer that a handler has dereferenced was allocated by `get_or_init` on the same thread
and not yet destroyed, if and only if each handler that looked up the value of its thread had
loaded the key after `KEY_INIT` published it, or found no value of another library under it.
SOURCE: signal/thread_state.rs:52-97, signal/handler.rs:30-61, 82-96, mmap/mod.rs:392-397 -/
theorem handler_uses_own_state_iff (acts : List (KeyAct τ)) (s : Model.Keys τ)
    (h : run Keys.step acts .init = some s) :
    (∀ d ∈ s.derefs, d.allocator = some d.thread) ↔ Along Keys.step KeyInTime acts .init := by
  have hmark := run_mark KeysOk Misused KeysOk.step step_misused acts keysOk_init h
  have hinit : ¬ Misused (Keys.init : Model.Keys τ) := by simp [Misused, Keys.init]
  rw [← not_iff_not]
  simp only [hinit, false_or] at hmark
  rw [← hmark]
  simp [Misused]

end Runs

/-- Another library has a value under key 0, and SIGBUS comes between `open` and the first
protected access. -/
def earlySigbus : List (KeyAct Unit) :=
  [.spawn (), .libraryCreate 0, .librarySet () 0 (some 9), .openMapping (), .sigbus (),
    .handlerKey (), .handlerState () false]

/-- The handler takes the value of the other library for a state of its thread.
SOURCE: signal/thread_state.rs:54, signal/handler.rs:37-44 -/
theorem handler_uses_library_value :
    ∃ s, run Keys.step earlySigbus .init = some s ∧
      s.derefs = [⟨(), .library 9, none⟩] :=
  ⟨_, rfl, rfl⟩

/-- The same library, and SIGBUS after a protected access. -/
def lateSigbus : List (KeyAct Unit) :=
  [.spawn (), .libraryCreate 0, .librarySet () 0 (some 9), .openMapping (), .access (), .next (),
    .create () 1, .next (), .next (), .next (), .next (), .next (), .next (), .sigbus (),
    .handlerKey (), .handlerState () true]

/-- The handler uses the state that the access has allocated.
SOURCE: signal/thread_state.rs:77-97, signal/handler.rs:37-44 -/
theorem handler_uses_own_state_iff_late :
    ∃ s, run Keys.step lateSigbus .init = some s ∧ s.derefs = [⟨(), .state 0, some ()⟩] ∧
      Along Keys.step KeyInTime lateSigbus .init := by
  have hderefs : (run Keys.step lateSigbus .init).map Keys.derefs =
      some [⟨(), .state 0, some ()⟩] := rfl
  obtain ⟨s, hs, hd⟩ := Option.map_eq_some_iff.mp hderefs
  refine ⟨s, hs, hd, (handler_uses_own_state_iff lateSigbus s hs).mp ?_⟩
  rw [hd]
  simp

end MmapShield.Analysis.Keys
