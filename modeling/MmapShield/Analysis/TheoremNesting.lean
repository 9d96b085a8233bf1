import MmapShield.Model.Nesting
import Mathlib.Data.List.Infix

/-!
# Nested protection

`in_protected` is one flag and the jump buffer one slot, and every call of
`with_sigbus_protection` overwrites both: an inner call that returns leaves the flag
cleared and its own dead checkpoint in the buffer. `nested_protection_iff` says for which
closures nothing goes wrong: those that run no inner call, apart from an inner call that
never returns because the process dies at an address outside of the registry.

* `exec_log`: the log only grows.
* `exec_undoomed`: a body that does not run into such an address ends or lets an inner
  call return (`Unprotects`).
* `exec_flat`: a flat body lets no inner call return.
-/

set_option autoImplicit false

namespace MmapShield.Analysis

open MmapShield.Model

variable {ρ : Type}

/-- The body runs into a fault outside of the registry, which ends the process, before it
ends, faults elsewhere or lets an inner call return. -/
def doomed (r : Registry) : Body ρ → Bool
  | .ret _ => false
  | .touch addr faults next => if faults then !contains r addr else doomed r next
  | .call f _ => doomed r f

/-- The body runs no inner call that returns: before it ends or faults it calls none, or
one that is doomed. -/
def flat (r : Registry) : Body ρ → Bool
  | .ret _ => true
  | .touch _ faults next => faults || flat r next
  | .call f _ => doomed r f

/-- **What nested protection promises.** A fault in the registry is never raised again while
a call is active; each jump makes a call that was active return the address; and an inner
call that returns leaves the protection of the enclosing call as it was. -/
structure NestedProtection (r : Registry) (log : List (NestEvent ρ)) : Prop where
  caught : ∀ addr active, .reraised addr active ∈ log → active ≠ [] → contains r addr = false
  recovered : ∀ addr jmpBuf active, .jumped addr jmpBuf active ∈ log →
    ∃ frame before after outer, frame ∈ active ∧
      .returned frame (.error addr) before after outer ∈ log
  restored : ∀ frame result before after active,
    .returned frame result before after active ∈ log → active ≠ [] →
    after.inProtected = before.inProtected ∧ after.jmpBuf = before.jmpBuf

/-- An inner call has returned and left the enclosing call without its protection. -/
def Unprotects (log : List (NestEvent ρ)) : Prop :=
  ∃ frame result before after active, .returned frame result before after active ∈ log ∧
    active ≠ [] ∧ before.inProtected = true ∧ after.inProtected = false

/-- A thread inside the closure of the call `frame`, with its protection in place. -/
def InFrame (frame : ℕ) (w : Nest ρ) : Prop :=
  w.state.inProtected = true ∧ w.state.jmpBuf = some frame

/-- INTERNAL: an inner call that has taken the protection away stays in the log. -/
theorem Unprotects.mono {log log' : List (NestEvent ρ)} (h : Unprotects log)
    (hlog : log <+: log') : Unprotects log' := by
  obtain ⟨frame, result, before, after, active, hmem, hrest⟩ := h
  exact ⟨frame, result, before, after, active, hlog.subset hmem, hrest⟩

/-- INTERNAL: a call that starts is inside its closure, with its protection in place. -/
theorem inFrame_start (w : Nest ρ) : InFrame w.frames w.start := ⟨rfl, rfl⟩

/-! ## The log -/

/-- INTERNAL: the end of a call only adds to the log. -/
theorem finishCall_log (frame : ℕ) (before : ThreadState) (active : List ℕ)
    (end_ : Ending ρ × Nest ρ) : end_.2.log <+: (finishCall frame before active end_).2.log := by
  obtain ⟨ending, w⟩ := end_
  cases ending with
  | value v => exact List.prefix_append _ _
  | jump target =>
    simp only [finishCall]
    split
    · exact List.prefix_append _ _
    · exact List.prefix_rfl
  | dead => exact List.prefix_rfl

/-- INTERNAL: the log only grows. -/
theorem exec_log (r : Registry) (b : Body ρ) (active : List ℕ) (w : Nest ρ) :
    w.log <+: (b.exec r active w).2.log := by
  induction b generalizing active w with
  | ret v => exact List.prefix_rfl
  | touch addr faults next ih =>
    simp only [Body.exec]
    split
    · unfold Nest.raise
      split
      · exact List.prefix_append _ _
      · exact List.prefix_append _ _
    · exact ih active w
  | call f next ihf ihnext =>
    have hstart : w.log <+: w.start.log := List.prefix_append _ _
    have hclosure := ihf (w.frames :: active) w.start
    have hfinish := finishCall_log w.frames w.state active
      (f.exec r (w.frames :: active) w.start)
    have hall := (hstart.trans hclosure).trans hfinish
    simp only [Body.exec]
    split
    · rename_i x w' heq
      rw [heq] at hall
      exact hall.trans (ihnext x active w')
    · rename_i target w' heq
      rw [heq] at hall
      exact hall
    · rename_i w' heq
      rw [heq] at hall
      exact hall

/-! ## Bodies that let an inner call return -/

/-- INTERNAL: a call whose closure ends or jumps to it returns, with the flag cleared.
SOURCE: signal/mod.rs:155-167 -/
theorem finishCall_returns {frame : ℕ} {before : ThreadState} {active : List ℕ}
    {end_ : Ending ρ × Nest ρ}
    (h : (∃ v, end_.1 = .value v) ∨ end_.1 = .jump (some frame)) :
    ∃ result after, after.inProtected = false ∧
      .returned frame result before after active ∈ (finishCall frame before active end_).2.log ∧
      (finishCall frame before active end_).1 = .returned result := by
  obtain ⟨ending, w⟩ := end_
  rcases h with ⟨v, hv⟩ | hj
  · simp only at hv
    subst hv
    refine ⟨.ok v, w.state.leave, rfl, ?_, rfl⟩
    exact List.mem_append_right _ (List.mem_singleton_self _)
  · simp only at hj
    subst hj
    simp only [finishCall, if_true]
    refine ⟨.error w.state.faultAddr, w.state.leave, rfl, ?_, rfl⟩
    exact List.mem_append_right _ (List.mem_singleton_self _)

/-- INTERNAL: an inner call whose closure ends, or jumps to it, returns to a body that then
has no protection.
SOURCE: signal/mod.rs:101-167 -/
theorem call_unprotects (r : Registry) (f : Body ρ) (next : Except ℕ ρ → Body ρ) {frame : ℕ}
    (active : List ℕ) {w : Nest ρ} (hw : InFrame frame w)
    (hinner : ((∃ v, (f.exec r (w.frames :: frame :: active) w.start).1 = .value v) ∨
        (f.exec r (w.frames :: frame :: active) w.start).1 = .jump (some w.frames)) ∨
      Unprotects (f.exec r (w.frames :: frame :: active) w.start).2.log) :
    Unprotects ((Body.call f next).exec r (frame :: active) w).2.log := by
  have hlog : (withSigbusProtection r f (frame :: active) w).2.log <+:
      ((Body.call f next).exec r (frame :: active) w).2.log := by
    rw [Body.exec_call]
    cases hcall : withSigbusProtection r f (frame :: active) w with
    | mk ending w' =>
      cases ending with
      | returned x => exact exec_log r (next x) (frame :: active) w'
      | jump target => exact List.prefix_rfl
      | dead => exact List.prefix_rfl
  apply Unprotects.mono _ hlog
  rcases hinner with hreturn | hunprotects
  · -- the inner call found the flag set and leaves it cleared
    obtain ⟨result, after, hafter, hmem, -⟩ := finishCall_returns hreturn
    exact ⟨w.frames, result, w.state, after, frame :: active, hmem, List.cons_ne_nil _ _,
      hw.1, hafter⟩
  · exact hunprotects.mono (finishCall_log _ _ _ _)

/-- INTERNAL: a body that is not doomed ends or jumps to its own call, or an inner call of
it has returned.
SOURCE: signal/mod.rs:101-167, signal/handler.rs:30-62 -/
theorem exec_undoomed (r : Registry) (b : Body ρ) (hb : doomed r b = false) (frame : ℕ)
    (active : List ℕ) (w : Nest ρ) (hw : InFrame frame w) :
    ((∃ v, (b.exec r (frame :: active) w).1 = .value v) ∨
      (b.exec r (frame :: active) w).1 = .jump (some frame)) ∨
    Unprotects (b.exec r (frame :: active) w).2.log := by
  induction b generalizing frame active w with
  | ret v => exact Or.inl (Or.inl ⟨v, rfl⟩)
  | touch addr faults next ih =>
    cases faults with
    | true =>
      have hfound : contains r addr = true := by simpa [doomed] using hb
      simp only [Body.exec, if_true, Nest.raise_found hw.1 hfound]
      exact Or.inl (Or.inr (congrArg Ending.jump hw.2))
    | false =>
      have hnext : doomed r next = false := by simpa [doomed] using hb
      simpa only [Body.exec, Bool.false_eq_true, if_false] using ih hnext frame active w hw
  | call f next ihf ihnext =>
    have hinner := ihf hb w.frames (frame :: active) w.start (inFrame_start w)
    exact Or.inr (call_unprotects r f next active hw hinner)

/-- INTERNAL: a body that is not flat lets an inner call return. -/
theorem exec_not_flat (r : Registry) (b : Body ρ) (hb : flat r b = false) (frame : ℕ)
    (active : List ℕ) (w : Nest ρ) (hw : InFrame frame w) :
    Unprotects (b.exec r (frame :: active) w).2.log := by
  induction b generalizing w with
  | ret v => cases hb
  | touch addr faults next ih =>
    simp only [flat, Bool.or_eq_false_iff] at hb
    obtain ⟨hfaults, hnext⟩ := hb
    subst hfaults
    simpa only [Body.exec, Bool.false_eq_true, if_false] using ih hnext w hw
  | call f next ihf ihnext =>
    have hinner := exec_undoomed r f hb w.frames (frame :: active) w.start (inFrame_start w)
    exact call_unprotects r f next active hw hinner

/-! ## Flat bodies -/

/-- INTERNAL: a doomed body ends the process at an address outside of the registry, and
until then no call returns and no jump is made.
SOURCE: signal/handler.rs:51-54 -/
theorem exec_doomed (r : Registry) (b : Body ρ) (hb : doomed r b = true) (frame : ℕ)
    (active : List ℕ) (w : Nest ρ) :
    ∃ (frames : List ℕ) (addr : ℕ) (act : List ℕ) (w' : Nest ρ), contains r addr = false ∧
      b.exec r (frame :: active) w = (.dead, w') ∧
      w'.log = w.log ++ frames.map .started ++ [.reraised addr act] := by
  induction b generalizing frame active w with
  | ret v => cases hb
  | touch addr faults next ih =>
    cases faults with
    | true =>
      have hfound : contains r addr = false := by simpa [doomed] using hb
      have hexec : (Body.touch addr true next).exec r (frame :: active) w =
          (.dead, { w with log := w.log ++ [.reraised addr (frame :: active)] }) := by
        simp only [Body.exec, if_true]
        exact Nest.raise_not_found hfound
      exact ⟨[], addr, frame :: active, _, hfound, hexec, by simp⟩
    | false =>
      have hnext : doomed r next = true := by simpa [doomed] using hb
      simpa only [Body.exec, Bool.false_eq_true, if_false] using ih hnext frame active w
  | call f next ihf ihnext =>
    obtain ⟨frames, addr, act, w', hfound, hexec, hlog⟩ :=
      ihf hb w.frames (frame :: active) w.start
    refine ⟨w.frames :: frames, addr, act, w', hfound, ?_, ?_⟩
    · rw [Body.exec_call]
      unfold withSigbusProtection
      rw [hexec]
      rfl
    · rw [hlog]
      simp [Nest.start]

/-- What a flat body adds to the log: nothing, a jump to its own call, or the calls that it
started and the end of the process. -/
def FlatEnd (r : Registry) (frame : ℕ) (active : List ℕ) (w : Nest ρ)
    (end_ : Ending ρ × Nest ρ) : Prop :=
  (∃ v, end_.1 = .value v ∧ end_.2.log = w.log) ∨
  (∃ addr, end_.1 = .jump (some frame) ∧ end_.2.state.faultAddr = addr ∧
    end_.2.log = w.log ++ [.jumped addr (some frame) (frame :: active)]) ∨
  ∃ (frames : List ℕ) (addr : ℕ) (act : List ℕ), contains r addr = false ∧ end_.1 = .dead ∧
    end_.2.log = w.log ++ frames.map .started ++ [.reraised addr act]

/-- INTERNAL: a flat body ends, or jumps to its own call, or ends the process.
SOURCE: signal/mod.rs:101-167, signal/handler.rs:30-62 -/
theorem exec_flat (r : Registry) (b : Body ρ) (hb : flat r b = true) (frame : ℕ)
    (active : List ℕ) (w : Nest ρ) (hw : InFrame frame w) :
    FlatEnd r frame active w (b.exec r (frame :: active) w) := by
  induction b generalizing w with
  | ret v => exact Or.inl ⟨v, rfl, rfl⟩
  | touch addr faults next ih =>
    cases faults with
    | true =>
      simp only [Body.exec, if_true]
      cases hfound : contains r addr with
      | true =>
        rw [Nest.raise_found hw.1 hfound, hw.2]
        exact Or.inr (Or.inl ⟨addr, rfl, rfl, rfl⟩)
      | false =>
        rw [Nest.raise_not_found hfound]
        exact Or.inr (Or.inr ⟨[], addr, frame :: active, hfound, rfl, by simp⟩)
    | false =>
      have hnext : flat r next = true := by simpa [flat] using hb
      simpa only [Body.exec, Bool.false_eq_true, if_false] using ih hnext w hw
  | call f next ihf ihnext =>
    have hdoomed : doomed r (.call f next) = true := hb
    obtain ⟨frames, addr, act, w', hfound, hexec, hlog⟩ :=
      exec_doomed r (.call f next) hdoomed frame active w
    rw [hexec]
    exact Or.inr (Or.inr ⟨frames, addr, act, hfound, rfl, hlog⟩)

/-! ## The result -/

/-- INTERNAL: over a flat closure every promise is kept.
SOURCE: signal/mod.rs:79-98 -/
theorem flat_protected (r : Registry) (f : Body ρ) (hf : flat r f = true) (state : ThreadState)
    (frames : ℕ) :
    NestedProtection r (withSigbusProtection r f [] ⟨state, frames, []⟩).2.log := by
  have hw : InFrame frames (Nest.start (⟨state, frames, []⟩ : Nest ρ)) := inFrame_start _
  have hend := exec_flat r f hf frames [] _ hw
  unfold withSigbusProtection
  generalize f.exec r [frames] (Nest.start ⟨state, frames, []⟩) = end_ at hend
  obtain ⟨ending, w'⟩ := end_
  rcases hend with ⟨v, hv, hlog⟩ | ⟨addr, hj, haddr, hlog⟩ | ⟨started, addr, act, hfound, hd, hlog⟩
  · simp only at hv hlog
    subst hv
    refine ⟨?_, ?_, ?_⟩
    · intro addr active hmem
      simp [finishCall, Nest.leave, hlog, Nest.start] at hmem
    · intro addr jmpBuf active hmem
      simp [finishCall, Nest.leave, hlog, Nest.start] at hmem
    · intro frame result before after active hmem hne
      simp [finishCall, Nest.leave, hlog, Nest.start] at hmem
      exact absurd hmem.2.2.2.2 hne
  · simp only at hj hlog haddr
    subst hj
    refine ⟨?_, ?_, ?_⟩
    · intro addr' active hmem
      simp [finishCall, Nest.leave, hlog, Nest.start] at hmem
    · intro addr' jmpBuf active hmem
      simp [finishCall, Nest.leave, hlog, Nest.start] at hmem
      obtain ⟨rfl, -, rfl⟩ := hmem
      refine ⟨frames, state, w'.state.leave, [], List.mem_singleton_self _, ?_⟩
      simp [finishCall, Nest.leave, haddr]
    · intro frame result before after active hmem hne
      simp [finishCall, Nest.leave, hlog, Nest.start] at hmem
      exact absurd hmem.2.2.2.2 hne
  · simp only at hd hlog
    subst hd
    refine ⟨?_, ?_, ?_⟩
    · intro addr' active hmem _
      simp [finishCall, hlog, Nest.start] at hmem
      rw [hmem.1]
      exact hfound
    · intro addr' jmpBuf active hmem
      simp [finishCall, hlog, Nest.start] at hmem
    · intro frame result before after active hmem
      simp [finishCall, hlog, Nest.start] at hmem

/-- RESULT: **when nested protection works.** A call of `with_sigbus_protection` keeps every
promise to the calls nested in its closure if and only if the closure is flat.
SOURCE: signal/mod.rs:79-167, signal/handler.rs:30-62, signal/thread_state.rs:36-50 -/
theorem nested_protection_iff (r : Registry) (f : Body ρ) (state : ThreadState) (frames : ℕ) :
    NestedProtection r (withSigbusProtection r f [] ⟨state, frames, []⟩).2.log ↔
      flat r f = true := by
  refine ⟨?_, fun hf => flat_protected r f hf state frames⟩
  intro hall
  by_contra hflat
  rw [Bool.not_eq_true] at hflat
  have hbad := exec_not_flat r f hflat frames [] _
    (inFrame_start (⟨state, frames, []⟩ : Nest ρ))
  obtain ⟨frame, result, before, after, active, hmem, hne, hbefore, hafter⟩ :=
    hbad.mono (finishCall_log frames state [] _)
  have hsame := (hall.restored frame result before after active hmem hne).1
  rw [hbefore, hafter] at hsame
  cases hsame

/-- The closure of an access to one mapping reads from another one and then touches its
own, where the page is gone. -/
def readInsideRead : Body Unit :=
  .call (.ret ()) fun _ => .touch 0x10004 true (.ret ())

/-- The fault in the outer closure is in the registry and its call is active, and the signal
is raised again all the same. -/
theorem readInsideRead_reraises :
    ¬ NestedProtection (register Registry.new 0x10000 0x1000)
      (withSigbusProtection (register Registry.new 0x10000 0x1000) readInsideRead []
        ⟨ThreadState.new, 0, []⟩).2.log := by
  intro h
  have hmem : NestEvent.reraised 0x10004 [0] ∈
      (withSigbusProtection (register Registry.new 0x10000 0x1000) readInsideRead []
        ⟨ThreadState.new, 0, []⟩).2.log := by
    have hlog : (withSigbusProtection (register Registry.new 0x10000 0x1000) readInsideRead []
        ⟨ThreadState.new, 0, []⟩).2.log =
        [.started 0, .started 1,
          .returned 1 (.ok ()) ⟨some 0, true, 0⟩ ⟨some 1, false, 0⟩ [0],
          .reraised 0x10004 [0]] := rfl
    rw [hlog]
    simp
  have hnot := h.caught 0x10004 [0] hmem (List.cons_ne_nil _ _)
  have hfound : contains (register Registry.new 0x10000 0x1000) 0x10004 = true := by decide
  rw [hfound] at hnot
  cases hnot

end MmapShield.Analysis
