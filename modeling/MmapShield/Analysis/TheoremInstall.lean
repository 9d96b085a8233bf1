import MmapShield.Model.Install

/-!
# One handler for the process

Whatever the threads do and in whatever order, `install` calls `sigaction(2)` once, and nobody is
past an installation before it has succeeded (`install_once`). The other side of `Once`: when other
code replaces the handler afterwards, no later `open`, guard or protected call puts it back, and
when the only attempt fails, every later call panics. The one other `sigaction(2)` of the crate is
that of a handler that has nothing to go back to; it gives SIGBUS to the default action, whoever
has it by then.
-/

set_option autoImplicit false

namespace MmapShield.Analysis.Install

open MmapShield.Computation MmapShield.Model

variable {ι : Type} [DecidableEq ι] {s s' : Installing ι}

/-- The action is one of other code. -/
def isReplace : InstallAct ι → Bool
  | .replace _ => true
  | _ => false

/-- A handler restores the default action. -/
def isRestore : InstallAct ι → Bool
  | .restore _ => true
  | _ => false

/-- The thread goes on in a call of `install`, or in its handler. -/
def GoesOn (t : ι) : InstallAct ι → Prop
  | .install u act => u = t ∧ act ≠ .call
  | .restore u | .raise u => u = t
  | _ => False

/-- The thread can take a step, however `sigaction(2)` answers. -/
def CanGoOn (s : Installing ι) (t : ι) : Prop :=
  ∃ a s', GoesOn t a ∧ Installing.step a s = some s'

/-! ## The moves -/

/-- What a step can do. -/
inductive Move (s : Installing ι) : InstallAct ι → Installing ι → Prop
  | install (t : ι) (act : OnceAct) (cell : Once ι)
      (hcell : Once.step (t, act) s.handlerInit = some cell) :
      Move s (.install t act)
        { s with handlerInit := cell, disposition := Installing.sigaction act s.disposition }
  | replace (disposition : Disposition) :
      Move s (.replace disposition) { s with disposition := disposition }
  | sigbus (t : ι) : Move s (.sigbus t) (s.deliver t (s.handlers t))
  | jump (t : ι) (rest : List RaisePc) (hhandlers : s.handlers t = .entered :: rest) :
      Move s (.jump t) (s.setHandlers t [])
  | restore (t : ι) (rest : List RaisePc) (hhandlers : s.handlers t = .entered :: rest) :
      Move s (.restore t) { s.setHandlers t (.restored :: rest) with disposition := .default }
  | raise (t : ι) (rest : List RaisePc) (hhandlers : s.handlers t = .restored :: rest) :
      Move s (.raise t) (s.deliver t rest)

/-- INTERNAL: **what a step can do.**
SOURCE: signal/handler.rs:30-72, 82-96 -/
theorem step_move {a : InstallAct ι} (h : Installing.step a s = some s') : Move s a s' := by
  unfold Installing.step at h
  split at h
  · cases h
  · cases a with
    | install t act =>
        dsimp only at h
        split at h
        · obtain ⟨cell, hcell, rfl⟩ := Option.map_eq_some_iff.mp h
          exact .install t act cell hcell
        · cases h
    | replace disposition =>
        cases h
        exact .replace disposition
    | sigbus t =>
        cases h
        exact .sigbus t
    | jump t =>
        dsimp only at h
        split at h
        · rename_i rest hhandlers _
          cases h
          exact .jump t rest hhandlers
        · rename_i rest hhandlers _
          cases h
          exact .jump t rest hhandlers
        · cases h
    | restore t =>
        dsimp only at h
        split at h
        · rename_i rest hhandlers
          cases h
          exact .restore t rest hhandlers
        · cases h
    | raise t =>
        dsimp only at h
        split at h
        · rename_i rest hhandlers
          cases h
          exact .raise t rest hhandlers
        · cases h

/-- INTERNAL: SIGBUS leaves the cell alone. -/
@[simp] theorem deliver_handlerInit (s : Installing ι) (t : ι) (handlers : List RaisePc) :
    (s.deliver t handlers).handlerInit = s.handlerInit := by
  unfold Installing.deliver
  split <;> rfl

/-- INTERNAL: SIGBUS leaves the disposition alone. -/
@[simp] theorem deliver_disposition (s : Installing ι) (t : ι) (handlers : List RaisePc) :
    (s.deliver t handlers).disposition = s.disposition := by
  unfold Installing.deliver
  split <;> rfl

/-- INTERNAL: a step keeps the invariant of the cell. -/
theorem Move.inv {a : InstallAct ι} (hmove : Move s a s') (h : s.handlerInit.Inv) :
    s'.handlerInit.Inv := by
  cases hmove with
  | install t act cell hcell => exact h.step (t, act) _ _ hcell
  | replace disposition => exact h
  | sigbus t => rwa [deliver_handlerInit]
  | jump t rest hhandlers => exact h
  | restore t rest hhandlers => exact h
  | raise t rest hhandlers => rwa [deliver_handlerInit]

/-- INTERNAL: only the end of the body changes what has run, and its answer says whether
`sigaction(2)` has changed the disposition.
SOURCE: signal/handler.rs:82-96 -/
theorem cell_step {t : ι} {act : OnceAct} {cell : Once ι} (h : s.handlerInit.Inv)
    (hcell : Once.step (t, act) s.handlerInit = some cell) :
    (∃ ok, act = .body ok ∧ s.handlerInit.ran = [] ∧ cell.ran = [ok]) ∨
      cell.ran = s.handlerInit.ran ∧
        Installing.sigaction act s.disposition = s.disposition := by
  cases Once.step_move hcell with
  | body ok hp =>
      have hrunning := h.alone t (by simp [hp, Once.inside])
      have hshown := h.shown
      rw [hrunning] at hshown
      rcases hshown.2 with ⟨-, hran⟩ | ⟨ok', hp', -⟩
      · exact Or.inl ⟨ok, rfl, hran, by simp [hran]⟩
      · rw [hp] at hp'
        cases hp'
  | call hp => exact Or.inr ⟨rfl, rfl⟩
  | first hp hs => exact Or.inr ⟨rfl, rfl⟩
  | later ok hp hs => exact Or.inr ⟨rfl, rfl⟩
  | settle ok hp => exact Or.inr ⟨rfl, rfl⟩
  | leave ok hp => exact Or.inr ⟨rfl, rfl⟩

/-! ## Where SIGBUS goes -/

/-- INTERNAL: every run keeps the invariant of the cell. -/
theorem inv_run {d : Disposition} (acts : List (InstallAct ι))
    (h : run Installing.step acts (Installing.init ι d) = some s) : s.handlerInit.Inv :=
  reach_invariant (fun s : Installing ι => s.handlerInit.Inv)
    (fun _ _ _ hinv hstep => (step_move hstep).inv hinv) acts (Once.inv_init ι) h

/-- The body has run: nobody is in it, and nobody will be. -/
def Attempted (s : Installing ι) : Prop := s.handlerInit.Inv ∧ s.handlerInit.ran ≠ []

/-- INTERNAL: after the only attempt a step of the crate leaves the disposition alone, but for a
handler that restores the default action.
SOURCE: signal/handler.rs:65-72, 82-96 -/
theorem attempted_step {a : InstallAct ι} (h : Attempted s) (ha : isReplace a = false)
    (hstep : Installing.step a s = some s') :
    Attempted s' ∧ s'.disposition = if isRestore a then .default else s.disposition := by
  have hmove := step_move hstep
  have hinv := hmove.inv h.1
  cases hmove with
  | install t act cell hcell =>
      rcases cell_step h.1 hcell with ⟨ok, -, hnone, -⟩ | ⟨hran, hsame⟩
      · exact absurd hnone h.2
      · exact ⟨⟨hinv, hran ▸ h.2⟩, hsame⟩
  | replace disposition => cases ha
  | sigbus t => exact ⟨⟨hinv, by simpa using h.2⟩, by simp [isRestore]⟩
  | jump t rest hhandlers => exact ⟨⟨hinv, h.2⟩, rfl⟩
  | restore t rest hhandlers => exact ⟨⟨hinv, h.2⟩, rfl⟩
  | raise t rest hhandlers => exact ⟨⟨hinv, by simpa using h.2⟩, by simp [isRestore]⟩

/-- INTERNAL: **after the attempt the crate only gives SIGBUS away.**
SOURCE: signal/handler.rs:65-72, 82-96 -/
theorem attempted_run (more : List (InstallAct ι)) (h : Attempted s)
    (hcrate : ∀ a ∈ more, isReplace a = false) (hmore : run Installing.step more s = some s') :
    s'.disposition = if more.any isRestore then .default else s.disposition := by
  induction more generalizing s with
  | nil =>
      cases hmore
      rfl
  | cons a more ih =>
      obtain ⟨u, hu, hrest⟩ := (run_cons a more).mp hmore
      obtain ⟨ha, hcrate⟩ := List.forall_mem_cons.mp hcrate
      obtain ⟨hattempted, hdisposition⟩ := attempted_step h ha hu
      rw [ih hattempted hcrate hrest, hdisposition, List.any_cons]
      cases isRestore a <;> simp

/-- After the installation SIGBUS goes to `sigbus_handler`, or a call of the handler has given it
back to the default action and is about to end the process with it, if that has not ended yet. -/
def Answered (s : Installing ι) : Prop :=
  s.disposition = .shield ∨ s.disposition = .default ∧
    (s.dead = true ∨ ∃ t rest, s.handlers t = .restored :: rest)

/-- INTERNAL: SIGBUS goes to the handler, or it ends the process. -/
theorem Answered.deliver (h : Answered s) (t : ι) (handlers : List RaisePc) :
    Answered (s.deliver t handlers) := by
  rcases h with hshield | ⟨hdefault, -⟩
  · exact Or.inl ((deliver_disposition _ _ _).trans hshield)
  · refine Or.inr ⟨(deliver_disposition _ _ _).trans hdefault, Or.inl ?_⟩
    unfold Installing.deliver
    rw [hdefault]

/-- INTERNAL: **without other code SIGBUS is answered** from the installation on.
SOURCE: signal/handler.rs:65-72, 82-96 -/
theorem answered_step {a : InstallAct ι} (ha : isReplace a = false)
    (h : s.handlerInit.Inv ∧ (s.handlerInit.ran = [true] → Answered s))
    (hstep : Installing.step a s = some s') :
    s'.handlerInit.Inv ∧ (s'.handlerInit.ran = [true] → Answered s') := by
  obtain ⟨hinv, hanswered⟩ := h
  have hmove := step_move hstep
  refine ⟨hmove.inv hinv, ?_⟩
  intro hran
  cases hmove with
  | install t act cell hcell =>
      rcases cell_step hinv hcell with ⟨ok, rfl, -, hone⟩ | ⟨hsame, hdisposition⟩
      · obtain rfl : ok = true := by simpa [hone] using hran
        exact Or.inl rfl
      · have hbefore := hanswered (hsame ▸ hran)
        show Installing.sigaction act s.disposition = .shield ∨
          Installing.sigaction act s.disposition = .default ∧ _
        rw [hdisposition]
        exact hbefore
  | replace disposition => cases ha
  | sigbus t => exact (hanswered (by simpa using hran)).deliver t _
  | jump t rest hhandlers =>
      rcases hanswered hran with hshield | ⟨hdefault, hdead | ⟨u, rest', hu⟩⟩
      · exact Or.inl hshield
      · exact Or.inr ⟨hdefault, Or.inl hdead⟩
      · -- the thread that is about to raise SIGBUS is not the one that jumps
        have hut : u ≠ t := by
          rintro rfl
          rw [hhandlers] at hu
          cases hu
        refine Or.inr ⟨hdefault, Or.inr ⟨u, rest', ?_⟩⟩
        exact (Function.update_of_ne hut _ _).trans hu
  | restore t rest hhandlers =>
      exact Or.inr ⟨rfl, Or.inr ⟨t, rest, Function.update_self _ _ _⟩⟩
  | raise t rest hhandlers => exact (hanswered (by simpa using hran)).deliver t rest

/-- INTERNAL: a thread that is in its handler, or can go on in a call, can take a step. -/
theorem canGoOn_of (halive : s.dead = false) {t : ι}
    (h : s.handlers t ≠ [] ∨ s.handlerInit.CanStep t) : CanGoOn s t := by
  cases hhandlers : s.handlers t with
  | nil =>
      rcases h with hne | ⟨act, cell, hact, hcell⟩
      · exact absurd hhandlers hne
      · exact ⟨.install t act, _, ⟨rfl, hact⟩,
          by simp [Installing.step, halive, hhandlers, hcell]; rfl⟩
  | cons point rest =>
      cases point with
      | entered => exact ⟨.restore t, _, rfl, by simp [Installing.step, halive, hhandlers]; rfl⟩
      | restored => exact ⟨.raise t, _, rfl, by simp [Installing.step, halive, hhandlers]; rfl⟩

/-- RESULT: **the handler is installed once.** In every run of any number of threads that install
the handler, with SIGBUS at any time, handlers that jump out or give the signal back, and other
code that calls `sigaction(2)` at any time: `install` calls `sigaction(2)` at most once; either all
calls of it that have ended returned or all of them panicked, as that call succeeded or failed;
nobody is past an installation before it has succeeded; as long as the process lives, a thread in a
call or in a handler can go on, unless another one, which can, is in the body. Without other code
SIGBUS goes to `sigbus_handler` from that call on, until a handler gives it back to the default
action; then the process has ended, or that handler is about to end it. From the state after the
call on no run without other code changes where SIGBUS goes, but for such a handler: one that has
been replaced is never put back.
SOURCE: signal/handler.rs:22, 30-96, signal/mod.rs:53-58, 105, mmap/mod.rs:394, mmap/guard.rs:59,
mmap/prefetch.rs:106 -/
theorem install_once (d : Disposition) (acts : List (InstallAct ι)) (s : Installing ι)
    (h : run Installing.step acts (Installing.init ι d) = some s) :
    s.handlerInit.ran.length ≤ 1 ∧
    (∀ t ok, (t, ok) ∈ s.handlerInit.left → s.handlerInit.ran = [ok]) ∧
    (∀ t, s.handlerInit.pc t = .past → s.handlerInit.ran = [true]) ∧
    (s.dead = false → ∀ t, s.handlerInit.pc t = .outside ∧ s.handlers t = [] ∨ CanGoOn s t ∨
      s.handlerInit.pc t = .enter ∧ ∃ u, s.handlerInit.state = .running u ∧ u ≠ t ∧
        CanGoOn s u) ∧
    ((∀ a ∈ acts, isReplace a = false) → s.handlerInit.ran = [true] → Answered s) ∧
    (s.handlerInit.ran ≠ [] → ∀ more s', (∀ a ∈ more, isReplace a = false) →
      run Installing.step more s = some s' →
        s'.disposition = if more.any isRestore then .default else s.disposition) := by
  have hinv := inv_run acts h
  refine ⟨?_, hinv.left, fun t ht => hinv.past t true ht, ?_, ?_, ?_⟩
  · have hshown := hinv.shown
    cases hs : s.handlerInit.state with
    | running t =>
        rw [hs] at hshown
        rcases hshown.2 with ⟨-, hran⟩ | ⟨ok, -, hran⟩
        · simp [hran]
        · simp [hran]
    | incomplete =>
        rw [hs] at hshown
        simp [hshown.1]
    | complete =>
        rw [hs] at hshown
        have hran : s.handlerInit.ran = [true] := hshown
        simp [hran]
    | poisoned =>
        rw [hs] at hshown
        have hran : s.handlerInit.ran = [false] := hshown
        simp [hran]
  · intro halive t
    by_cases hhandlers : s.handlers t = []
    · rcases hinv.progress t with hout | hcan | ⟨hp, u, hrunning, hne, hcan⟩
      · exact Or.inl ⟨hout, hhandlers⟩
      · exact Or.inr (Or.inl (canGoOn_of halive (Or.inr hcan)))
      · exact Or.inr (Or.inr ⟨hp, u, hrunning, hne, canGoOn_of halive (Or.inr hcan)⟩)
    · exact Or.inr (Or.inl (canGoOn_of halive (Or.inl hhandlers)))
  · intro hcrate hran
    have hkept := run_invariant
      (fun s : Installing ι => s.handlerInit.Inv ∧ (s.handlerInit.ran = [true] → Answered s))
      (C := fun a _ => isReplace a = false) (fun a s s' ha hs hstep => answered_step ha hs hstep)
      acts ⟨Once.inv_init ι, by simp [Installing.init, Once.init]⟩
      (along_of_forall fun a ha _ => hcrate a ha) h
    exact hkept.2 hran
  · intro hran more s' hcrate hmore
    exact attempted_run more ⟨hinv, hran⟩ hcrate hmore

/-- Two threads install at the same time; then other code takes SIGBUS away. -/
def replaced : List (InstallAct Bool) :=
  [.install false .call, .install true .call, .install false .next, .install false (.body true),
    .install false .next, .install true .next, .replace (.other 1)]

/-- The thread that has installed the handler does so again. -/
def again : List (InstallAct Bool) :=
  [.install false .leave, .install false .call, .install false .next]

/-- The first thread installs again after `replaced`, which does not put the handler back. -/
theorem install_once_replaced :
    ∃ s s', run Installing.step replaced (Installing.init Bool .default) = some s ∧
      run Installing.step again s = some s' ∧
      s.handlerInit.pc true = .past ∧ s.handlerInit.ran = [true] ∧
      s'.disposition = .other 1 := by
  refine ⟨_, _, rfl, rfl, rfl, ?_, ?_⟩
  · exact (install_once .default replaced _ rfl).2.2.1 true rfl
  · exact (install_once .default replaced _ rfl).2.2.2.2.2 (List.cons_ne_nil _ _) again _
      (by decide) rfl

/-- A handler that has begun before other code takes SIGBUS away takes it from that code. -/
example : (run Installing.step
    [.install false .call, .install false .next, .install false (.body true), .sigbus true,
      .replace (.other 1), .restore true] (Installing.init Bool .default)).map
        Installing.disposition = some .default := rfl

end MmapShield.Analysis.Install
