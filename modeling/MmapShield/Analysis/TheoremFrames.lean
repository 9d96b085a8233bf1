import MmapShield.Computation.Machine
import MmapShield.Model.Frames

/-!
# Jumps go to live checkpoints

`Move` says what one step of a thread does. The invariant `Sound` ties the flag, the buffer
and the stack together: while the innermost call is in its closure and the flag is set, the
buffer holds the checkpoint of that call. A nested call leaves a stale checkpoint behind, and
the flag cleared. Everything else is about each call alone: what its context holds, and what
the log says about it, at each point of its code.
-/

set_option autoImplicit false

namespace MmapShield.Analysis.Frames

open MmapShield.Computation MmapShield.Model

variable {κ ρ : Type} {s s' : CallStack κ ρ}

/-- What a step of a thread that has not crashed does. -/
inductive Move (s : CallStack κ ρ) : FrameAct κ ρ → CallStack κ ρ → Prop
  | call (label : κ) (hcode : s.inCode = true) :
      Move s (.call label)
        { s with
          frames := ⟨s.nextId, label, .enter, true, none⟩ :: s.frames, nextId := s.nextId + 1 }
  | enter {top : Frame κ ρ} {rest : List (Frame κ ρ)} (hf : s.frames = top :: rest)
      (hpc : top.pc = .enter) :
      Move s .next { s with
        state := s.state.enter, frames := { top with pc := .sigsetjmp } :: rest }
  | sigsetjmp {top : Frame κ ρ} {rest : List (Frame κ ρ)} (hf : s.frames = top :: rest)
      (hpc : top.pc = .sigsetjmp) :
      Move s .next { s with
        state := s.state.sigsetjmp top.id, frames := { top with pc := .trampoline } :: rest }
  | trampoline {top : Frame κ ρ} {rest : List (Frame κ ρ)} (hf : s.frames = top :: rest)
      (hpc : top.pc = .trampoline) (htop : top.f = true) :
      Move s .next { s with
        frames := { top with pc := .closure, f := false } :: rest
        log := s.log ++ [.started top.id] }
  | consumed {top : Frame κ ρ} {rest : List (Frame κ ρ)} (hf : s.frames = top :: rest)
      (hpc : top.pc = .trampoline) (htop : top.f = false) :
      Move s .next { s with crash := some .consumedClosure }
  | leave {top : Frame κ ρ} {rest : List (Frame κ ρ)} {jumpResult : Bool}
      (hf : s.frames = top :: rest) (hpc : top.pc = .leave jumpResult) :
      Move s .next { s with
        state := s.state.leave, frames := { top with pc := .finish jumpResult } :: rest }
  | failed {top : Frame κ ρ} {rest : List (Frame κ ρ)} (hf : s.frames = top :: rest)
      (hpc : top.pc = .finish true) :
      Move s .next (s.returns top.id (.error s.state.faultAddr) rest)
  | succeeded {top : Frame κ ρ} {rest : List (Frame κ ρ)} {v : ρ} (hf : s.frames = top :: rest)
      (hpc : top.pc = .finish false) (hv : top.result = some v) :
      Move s .next (s.returns top.id (.ok v) rest)
  | missing {top : Frame κ ρ} {rest : List (Frame κ ρ)} (hf : s.frames = top :: rest)
      (hpc : top.pc = .finish false) (hv : top.result = none) :
      Move s .next { s with crash := some .missingResult }
  | touch (addr : ℕ) {top : Frame κ ρ} {rest : List (Frame κ ρ)} (hf : s.frames = top :: rest)
      (hpc : top.pc = .closure) : Move s (.touch addr) s
  | ret (v : ρ) {top : Frame κ ρ} {rest : List (Frame κ ρ)} (hf : s.frames = top :: rest)
      (hpc : top.pc = .closure) :
      Move s (.ret v) { s with
        frames := { top with pc := .leave false, result := some v } :: rest
        log := s.log ++ [.value top.id v] }
  | reraise (addr : ℕ) (found : Bool) {top : Frame κ ρ} {rest : List (Frame κ ρ)}
      (hf : s.frames = top :: rest) (hpc : top.pc = .closure)
      (hnot : s.state.inProtected = false ∨ found = false) :
      Move s (.fault addr found) { s with crash := some (.reraised addr) }
  | wild (addr : ℕ) {top : Frame κ ρ} {rest : List (Frame κ ρ)} (hf : s.frames = top :: rest)
      (hpc : top.pc = .closure) (hin : s.state.inProtected = true)
      (hto : CallStack.unwind s.frames s.state.jmpBuf = []) :
      Move s (.fault addr true) { s with
        state := handlerStores s.state addr, crash := some (.wildJump s.state.jmpBuf) }
  | jump (addr : ℕ) {top target : Frame κ ρ} {rest below : List (Frame κ ρ)}
      (hf : s.frames = top :: rest) (hpc : top.pc = .closure) (hin : s.state.inProtected = true)
      (hto : CallStack.unwind s.frames s.state.jmpBuf = target :: below) :
      Move s (.fault addr true) { s with
        state := handlerStores s.state addr
        frames := { target with pc := .leave true } :: below
        log := s.log ++ [.jumped addr s.state.jmpBuf (s.frames.map Frame.id)] }

/-- INTERNAL: the next step of the code is one of the moves. -/
theorem nextStep_move (h : s.nextStep = some s') : Move s .next s' := by
  unfold CallStack.nextStep at h
  split at h
  · cases h
  · rename_i top rest hf
    split at h
    · rename_i hpc
      cases h
      exact .enter hf hpc
    · rename_i hpc
      cases h
      exact .sigsetjmp hf hpc
    · rename_i hpc
      split at h
      · rename_i htop
        cases h
        exact .trampoline hf hpc htop
      · rename_i htop
        cases h
        exact .consumed hf hpc (Bool.eq_false_iff.mpr htop)
    · cases h
    · rename_i jumpResult hpc
      cases h
      exact .leave hf hpc
    · rename_i hpc
      cases h
      exact .failed hf hpc
    · rename_i hpc
      split at h
      · rename_i v hv
        cases h
        exact .succeeded hf hpc hv
      · rename_i hv
        cases h
        exact .missing hf hpc hv

/-- INTERNAL: the handler, by the flag and the registry.
SOURCE: signal/handler.rs:46-61 -/
theorem faultStep_move {addr : ℕ} {found : Bool} (h : s.faultStep addr found = some s') :
    Move s (.fault addr found) s' := by
  unfold CallStack.faultStep at h
  split at h
  · cases h
  · rename_i top rest hf
    split at h
    · rename_i hpc
      cases hin : s.state.inProtected with
      | false =>
        simp only [sigbusHandler, hin, Bool.not_false, if_true, Option.some.injEq] at h
        rw [← h]
        exact .reraise addr found hf hpc (Or.inl hin)
      | true =>
        cases found with
        | false =>
          simp only [sigbusHandler, hin, Bool.not_true, Bool.not_false, Bool.false_eq_true,
            if_false, if_true, Option.some.injEq] at h
          rw [← h]
          exact .reraise addr false hf hpc (Or.inr rfl)
        | true =>
          simp only [sigbusHandler, hin, Bool.not_true, Bool.false_eq_true, if_false] at h
          split at h
          · rename_i hto
            cases h
            exact .wild addr hf hpc hin hto
          · rename_i target below hto
            cases h
            exact .jump addr hf hpc hin hto
    · cases h

/-- INTERNAL: **every step is a move**, of a thread that has not crashed.
SOURCE: signal/mod.rs:101-167, signal/handler.rs:30-62 -/
theorem step_move {act : FrameAct κ ρ} (h : CallStack.step act s = some s') :
    s.crash = none ∧ Move s act s' := by
  unfold CallStack.step at h
  split at h
  · cases h
  · rename_i hcrash
    refine ⟨by simpa using hcrash, ?_⟩
    cases act with
    | call label =>
      simp only [CallStack.callStep] at h
      split at h
      · rename_i hcode
        cases h
        exact .call label hcode
      · cases h
    | next => exact nextStep_move h
    | touch addr =>
      simp only [CallStack.touchStep] at h
      split at h
      · cases h
      · rename_i top rest hf
        split at h
        · rename_i hpc
          cases h
          exact .touch addr hf hpc
        · cases h
    | fault addr found => exact faultStep_move h
    | ret v =>
      simp only [CallStack.retStep] at h
      split at h
      · cases h
      · rename_i top rest hf
        split at h
        · rename_i hpc
          cases h
          exact .ret v hf hpc
        · cases h

/-! ## The log -/

/-- The closure of the call is started. -/
def isStart (id : ℕ) : FrameEvent ρ → Bool
  | .started frame => frame == id
  | _ => false

/-- How often the closure of the call was started. -/
def starts (log : List (FrameEvent ρ)) (id : ℕ) : ℕ := log.countP (isStart id)

/-- The handler has jumped to the call. -/
def JumpedTo (log : List (FrameEvent ρ)) (id : ℕ) : Prop :=
  ∃ addr active, FrameEvent.jumped addr (some id) active ∈ log

/-- The call that an event is about. -/
def eventId : FrameEvent ρ → Option ℕ
  | .started frame | .value frame _ | .returned frame _ _ => some frame
  | .jumped _ jmpBuf _ => jmpBuf

/-- What is right about an event: a jump goes to the innermost call that is active, and a call
returns with the flag cleared, its closure started once, with the value of its closure if no
jump went to it and with the address of the jump if one did. -/
def EventOk (log : List (FrameEvent ρ)) : FrameEvent ρ → Prop
  | .jumped _ jmpBuf active => ∃ id rest, jmpBuf = some id ∧ active = id :: rest
  | .returned id result inProtected =>
    inProtected = false ∧ starts log id = 1 ∧
      match result with
      | .ok v => .value id v ∈ log ∧ ¬ JumpedTo log id
      | .error addr => ∃ active, .jumped addr (some id) active ∈ log
  | _ => True

section Log

variable {log : List (FrameEvent ρ)} {e : FrameEvent ρ} {id : ℕ}

/-- INTERNAL: one event more starts a call once more, if it is the start of that call. -/
theorem starts_append : starts (log ++ [e]) id = starts log id + if isStart id e then 1 else 0 := by
  simp [starts, List.countP_append, List.countP_cons]

/-- INTERNAL: an event about another call starts nothing of this one. -/
theorem starts_other (h : eventId e ≠ some id) : starts (log ++ [e]) id = starts log id := by
  have hnot : isStart id e = false := by
    cases e with
    | started frame =>
      simp only [eventId, ne_eq, Option.some.injEq] at h
      simpa [isStart] using h
    | _ => rfl
  rw [starts_append, hnot]
  rfl

/-- INTERNAL: an event that is no jump to the call adds none. -/
theorem jumpedTo_append (h : ∀ addr active, .jumped addr (some id) active ≠ e) :
    JumpedTo (log ++ [e]) id ↔ JumpedTo log id := by
  constructor
  · rintro ⟨addr, active, hmem⟩
    rcases List.mem_append.mp hmem with hold | hnew
    · exact ⟨addr, active, hold⟩
    · exact absurd (List.mem_singleton.mp hnew) (h addr active)
  · rintro ⟨addr, active, hmem⟩
    exact ⟨addr, active, List.mem_append_left _ hmem⟩

/-- INTERNAL: an event of another call says nothing about the jumps to this one. -/
theorem jumpedTo_other (h : eventId e ≠ some id) : JumpedTo (log ++ [e]) id ↔ JumpedTo log id := by
  apply jumpedTo_append
  rintro addr active rfl
  exact h rfl

/-- INTERNAL: what was right about an event stays so while the call that has returned is not
heard of again. -/
theorem EventOk.append {old : FrameEvent ρ} (h : EventOk log old)
    (hother : ∀ id result flag, old = .returned id result flag → eventId e ≠ some id) :
    EventOk (log ++ [e]) old := by
  cases old with
  | jumped addr jmpBuf active => exact h
  | returned id result flag =>
    have hne := hother id result flag rfl
    obtain ⟨hflag, hstarts, hresult⟩ := h
    refine ⟨hflag, by rw [starts_other hne, hstarts], ?_⟩
    cases result with
    | ok v => exact ⟨List.mem_append_left _ hresult.1, fun hj =>
        hresult.2 ((jumpedTo_other hne).mp hj)⟩
    | error addr =>
      obtain ⟨active, hmem⟩ := hresult
      exact ⟨active, List.mem_append_left _ hmem⟩
  | started frame => trivial
  | value frame v => trivial

end Log

/-! ## The invariant -/

/-- What a call has done, at each point of its code. -/
def FrameOk (log : List (FrameEvent ρ)) (faultAddr : ℕ) (frame : Frame κ ρ) : Prop :=
  match frame.pc with
  | .enter | .sigsetjmp | .trampoline =>
    frame.f = true ∧ starts log frame.id = 0 ∧ ¬ JumpedTo log frame.id
  | .closure => starts log frame.id = 1 ∧ ¬ JumpedTo log frame.id
  | .leave false | .finish false =>
    starts log frame.id = 1 ∧ ¬ JumpedTo log frame.id ∧
      ∃ v, frame.result = some v ∧ .value frame.id v ∈ log
  | .leave true | .finish true =>
    starts log frame.id = 1 ∧ ∃ active, .jumped faultAddr (some frame.id) active ∈ log

/-- **The checkpoint is live.** While the flag is set and a closure runs, the buffer holds the
checkpoint of the innermost call. -/
def StateOk (state : ThreadState) : List (Frame κ ρ) → Prop
  | [] => state.inProtected = false
  | top :: _ =>
    match top.pc with
    | .trampoline | .closure => state.inProtected = true → state.jmpBuf = some top.id
    | .finish _ => state.inProtected = false
    | _ => True

/-- The invariant of a thread. -/
structure Sound (s : CallStack κ ρ) : Prop where
  crash : s.crash = none ∨ ∃ addr, s.crash = some (.reraised addr)
  nodup : (s.frames.map Frame.id).Nodup
  fresh : ∀ frame ∈ s.frames, frame.id < s.nextId
  logFresh : ∀ e ∈ s.log, ∀ id, eventId e = some id → id < s.nextId
  below : ∀ frame ∈ s.frames.tail, frame.pc = .closure
  frameOk : ∀ frame ∈ s.frames, FrameOk s.log s.state.faultAddr frame
  stateOk : StateOk s.state s.frames
  gone : ∀ id result flag, .returned id result flag ∈ s.log → ∀ frame ∈ s.frames, frame.id ≠ id
  events : ∀ e ∈ s.log, EventOk s.log e

/-- INTERNAL: the invariant holds without a call. -/
theorem sound_idle (state : ThreadState) (nextId : ℕ) (hout : state.inProtected = false) :
    Sound (CallStack.idle state nextId : CallStack κ ρ) where
  crash := Or.inl rfl
  nodup := List.nodup_nil
  fresh := by simp [CallStack.idle]
  logFresh := by simp [CallStack.idle]
  below := by simp [CallStack.idle]
  frameOk := by simp [CallStack.idle]
  stateOk := hout
  gone := by simp [CallStack.idle]
  events := by simp [CallStack.idle]

section Steps

variable {top : Frame κ ρ} {rest : List (Frame κ ρ)}

/-- INTERNAL: a closure that waits for a nested call is left alone. -/
theorem FrameOk.waits {log new : List (FrameEvent ρ)} {addr addr' : ℕ} {frame : Frame κ ρ}
    (h : FrameOk log addr frame) (hpc : frame.pc = .closure)
    (hnew : new = [] ∨ ∃ e, new = [e] ∧ eventId e ≠ some frame.id) :
    FrameOk (log ++ new) addr' frame := by
  unfold FrameOk at h ⊢
  rw [hpc] at h ⊢
  rcases hnew with rfl | ⟨e, rfl, hne⟩
  · rw [List.append_nil]
    exact h
  · exact ⟨by rw [starts_other hne]; exact h.1, fun hj => h.2 ((jumpedTo_other hne).mp hj)⟩

/-- INTERNAL: the other calls are not the one on top. -/
theorem Sound.rest_ne (h : Sound s) (hf : s.frames = top :: rest) :
    ∀ frame ∈ rest, top.id ≠ frame.id := by
  have hnodup := h.nodup
  rw [hf, List.map_cons, List.nodup_cons] at hnodup
  intro frame hmem heq
  exact hnodup.1 (heq ▸ List.mem_map_of_mem hmem)

/-- INTERNAL: **the call on top moves on**, with at most one new event, which is about it. -/
theorem Sound.retop (h : Sound s) (hf : s.frames = top :: rest) (top' : Frame κ ρ)
    (hid : top'.id = top.id) (state : ThreadState) (new : List (FrameEvent ρ))
    (hnew : new = [] ∨ ∃ e, new = [e] ∧ eventId e = some top.id ∧
      (∀ id result flag, e ≠ .returned id result flag) ∧ EventOk (s.log ++ [e]) e)
    (hstate : StateOk state (top' :: rest))
    (htop : FrameOk (s.log ++ new) state.faultAddr top') :
    Sound { s with state := state, frames := top' :: rest, log := s.log ++ new } := by
  have hne := h.rest_ne hf
  have hwaits : ∀ frame ∈ rest, frame.pc = .closure := by
    intro frame hmem
    apply h.below
    rw [hf]
    exact hmem
  have hold (frame : Frame κ ρ) (hmem : frame ∈ rest) :
      new = [] ∨ ∃ e, new = [e] ∧ eventId e ≠ some frame.id := by
    rcases hnew with hnil | ⟨e, hone, habout, -⟩
    · exact Or.inl hnil
    · refine Or.inr ⟨e, hone, ?_⟩
      rw [habout]
      intro heq
      exact hne frame hmem (Option.some.inj heq)
  have htopMem : top ∈ s.frames := by
    rw [hf]
    exact List.mem_cons_self
  have hrestMem (frame : Frame κ ρ) (hmem : frame ∈ rest) : frame ∈ s.frames := by
    rw [hf]
    exact List.mem_cons_of_mem top hmem
  have hmemNew (e : FrameEvent ρ) (hmem : e ∈ s.log ++ new) :
      e ∈ s.log ∨ eventId e = some top.id ∧ (∀ id result flag, e ≠ .returned id result flag) ∧
        EventOk (s.log ++ new) e := by
    rcases List.mem_append.mp hmem with hlog | hlast
    · exact Or.inl hlog
    · rcases hnew with hnil | ⟨e', hone, habout, hret, hok⟩
      · rw [hnil] at hlast
        cases hlast
      · rw [hone] at hlast ⊢
        rw [List.mem_singleton.mp hlast]
        exact Or.inr ⟨habout, hret, hok⟩
  have hnodup := h.nodup
  rw [hf] at hnodup
  refine ⟨h.crash, ?_, ?_, ?_, hwaits, ?_, hstate, ?_, ?_⟩
  · rw [List.map_cons, hid]
    exact hnodup
  · intro frame hmem
    rcases List.mem_cons.mp hmem with rfl | hrest
    · rw [hid]
      exact h.fresh top htopMem
    · exact h.fresh frame (hrestMem frame hrest)
  · intro e hmem id hid'
    rcases hmemNew e hmem with hlog | ⟨habout, -, -⟩
    · exact h.logFresh e hlog id hid'
    · rw [habout] at hid'
      rw [← Option.some.inj hid']
      exact h.fresh top htopMem
  · intro frame hmem
    rcases List.mem_cons.mp hmem with rfl | hrest
    · exact htop
    · exact (h.frameOk frame (hrestMem frame hrest)).waits (hwaits frame hrest) (hold frame hrest)
  · intro id result flag hmem frame hframe
    rcases hmemNew _ hmem with hlog | ⟨-, hret, -⟩
    · rcases List.mem_cons.mp hframe with rfl | hrest
      · rw [hid]
        exact h.gone id result flag hlog top htopMem
      · exact h.gone id result flag hlog frame (hrestMem frame hrest)
    · exact absurd rfl (hret id result flag)
  · intro e hmem
    rcases hmemNew e hmem with hlog | ⟨-, -, hok⟩
    · rcases hnew with hnil | ⟨e', hone, habout, -, -⟩
      · rw [hnil, List.append_nil]
        exact h.events e hlog
      · rw [hone]
        apply (h.events e hlog).append
        intro id result flag heq
        rw [habout]
        rw [heq] at hlog
        intro hsame
        exact h.gone id result flag hlog top htopMem (Option.some.inj hsame)
    · exact hok

/-- INTERNAL: **the call on top returns**, and is not heard of again.
SOURCE: signal/mod.rs:157-166 -/
theorem Sound.pop (h : Sound s) (hf : s.frames = top :: rest) {jumpResult : Bool}
    (hpc : top.pc = .finish jumpResult) {result : Except ℕ ρ}
    (hok : EventOk (s.log ++ [.returned top.id result s.state.inProtected])
      (.returned top.id result s.state.inProtected)) :
    Sound (s.returns top.id result rest) := by
  have hne := h.rest_ne hf
  have hout : s.state.inProtected = false := by
    have hstate := h.stateOk
    simp only [hf, StateOk, hpc] at hstate
    exact hstate
  have hwaits : ∀ frame ∈ rest, frame.pc = .closure := by
    intro frame hmem
    apply h.below
    rw [hf]
    exact hmem
  have htopMem : top ∈ s.frames := by
    rw [hf]
    exact List.mem_cons_self
  have hrestMem (frame : Frame κ ρ) (hmem : frame ∈ rest) : frame ∈ s.frames := by
    rw [hf]
    exact List.mem_cons_of_mem top hmem
  have hnodup := h.nodup
  rw [hf, List.map_cons, List.nodup_cons] at hnodup
  refine ⟨h.crash, hnodup.2, fun frame hmem => h.fresh frame (hrestMem frame hmem), ?_, ?_, ?_, ?_,
    ?_, ?_⟩
  · intro e hmem id hid
    rcases List.mem_append.mp hmem with hlog | hlast
    · exact h.logFresh e hlog id hid
    · rw [List.mem_singleton.mp hlast] at hid
      rw [← Option.some.inj hid]
      exact h.fresh top htopMem
  · intro frame hmem
    exact hwaits frame (List.mem_of_mem_tail hmem)
  · intro frame hmem
    apply (h.frameOk frame (hrestMem frame hmem)).waits (hwaits frame hmem)
    refine Or.inr ⟨_, rfl, ?_⟩
    intro heq
    exact hne frame hmem (Option.some.inj heq)
  · -- the caller is outside of all calls, or in a closure with the flag cleared
    change StateOk s.state rest
    cases hrest : rest with
    | nil => exact hout
    | cons outer below =>
      have hclosure := hwaits outer (by rw [hrest]; exact List.mem_cons_self)
      simp only [StateOk, hclosure]
      intro hin
      rw [hout] at hin
      cases hin
  · intro id result' flag hmem frame hframe
    rcases List.mem_append.mp hmem with hlog | hlast
    · exact h.gone id result' flag hlog frame (hrestMem frame hframe)
    · cases List.mem_singleton.mp hlast
      exact (hne frame hframe).symm
  · intro e hmem
    rcases List.mem_append.mp hmem with hlog | hlast
    · apply (h.events e hlog).append
      intro id result' flag heq
      rw [heq] at hlog
      intro hsame
      exact h.gone id result' flag hlog top htopMem (Option.some.inj hsame)
    · rw [List.mem_singleton.mp hlast]
      exact hok

/-- INTERNAL: no event is about a call that has not begun. -/
theorem Sound.unheard (h : Sound s) : starts s.log s.nextId = 0 ∧ ¬ JumpedTo s.log s.nextId := by
  refine ⟨?_, ?_⟩
  · rw [starts, List.countP_eq_zero]
    intro e hmem hstart
    cases e with
    | started frame =>
      have hlt := h.logFresh _ hmem frame rfl
      simp only [isStart, beq_iff_eq] at hstart
      omega
    | _ => cases hstart
  · rintro ⟨addr, active, hmem⟩
    exact Nat.lt_irrefl _ (h.logFresh _ hmem s.nextId rfl)

/-- INTERNAL: **a call begins**, inside the closure on top or outside of all calls.
SOURCE: signal/mod.rs:105-117 -/
theorem Sound.push (h : Sound s) (label : κ) (hcode : s.inCode = true) :
    Sound { s with
      frames := ⟨s.nextId, label, .enter, true, none⟩ :: s.frames, nextId := s.nextId + 1 } := by
  have hne : ∀ frame ∈ s.frames, frame.id ≠ s.nextId := by
    intro frame hmem
    exact Nat.ne_of_lt (h.fresh frame hmem)
  refine ⟨h.crash, ?_, ?_, ?_, ?_, ?_, trivial, ?_, h.events⟩
  · rw [List.map_cons, List.nodup_cons]
    refine ⟨?_, h.nodup⟩
    intro hmem
    obtain ⟨frame, hframe, heq⟩ := List.mem_map.mp hmem
    exact hne frame hframe heq
  · intro frame hmem
    rcases List.mem_cons.mp hmem with rfl | hold
    · exact Nat.lt_succ_self _
    · exact Nat.lt_succ_of_lt (h.fresh frame hold)
  · intro e hmem id hid
    exact Nat.lt_succ_of_lt (h.logFresh e hmem id hid)
  · intro frame hmem
    change frame ∈ s.frames at hmem
    cases hf : s.frames with
    | nil =>
      rw [hf] at hmem
      cases hmem
    | cons top rest =>
      rw [hf] at hmem
      rcases List.mem_cons.mp hmem with rfl | hrest
      · simpa [CallStack.inCode, hf] using hcode
      · apply h.below
        rw [hf]
        exact hrest
  · intro frame hmem
    rcases List.mem_cons.mp hmem with rfl | hold
    · exact ⟨rfl, h.unheard⟩
    · exact h.frameOk frame hold
  · intro id result flag hmem frame hframe
    rcases List.mem_cons.mp hframe with rfl | hold
    · exact Nat.ne_of_gt (h.logFresh _ hmem id rfl)
    · exact h.gone id result flag hmem frame hold

/-- INTERNAL: the jump of the handler goes to the call on top.
SOURCE: signal/handler.rs:56-61 -/
theorem Sound.unwind_top (h : Sound s) (hf : s.frames = top :: rest) (hpc : top.pc = .closure)
    (hin : s.state.inProtected = true) :
    s.state.jmpBuf = some top.id ∧ CallStack.unwind s.frames s.state.jmpBuf = top :: rest := by
  have hstate := h.stateOk
  simp only [hf, StateOk, hpc] at hstate
  have hbuf := hstate hin
  refine ⟨hbuf, ?_⟩
  rw [hf, hbuf, CallStack.unwind, List.dropWhile_cons_of_neg (by simp)]

end Steps

/-- INTERNAL: **every step keeps the invariant.**
SOURCE: signal/mod.rs:101-167, signal/handler.rs:30-62, csrc/sigsetjmp_shim.c:33-49 -/
theorem Sound.step (act : FrameAct κ ρ) (s s' : CallStack κ ρ) (h : Sound s)
    (hstep : CallStack.step act s = some s') : Sound s' := by
  obtain ⟨hcrash, hmove⟩ := step_move hstep
  have htop {top : Frame κ ρ} {rest : List (Frame κ ρ)} (hf : s.frames = top :: rest) :
      FrameOk s.log s.state.faultAddr top := by
    apply h.frameOk
    rw [hf]
    exact List.mem_cons_self
  cases hmove with
  | call label hcode => exact h.push label hcode
  | @enter top rest hf hpc =>
    have hframe := htop hf
    simp only [FrameOk, hpc] at hframe
    have hnext := h.retop hf { top with pc := .sigsetjmp } rfl s.state.enter []
      (Or.inl rfl) trivial (by rw [List.append_nil]; exact hframe)
    rwa [List.append_nil] at hnext
  | @sigsetjmp top rest hf hpc =>
    have hframe := htop hf
    simp only [FrameOk, hpc] at hframe
    have hnext := h.retop hf { top with pc := .trampoline } rfl
      (s.state.sigsetjmp top.id) [] (Or.inl rfl) (fun _ => rfl)
      (by rw [List.append_nil]; exact hframe)
    rwa [List.append_nil] at hnext
  | @trampoline top rest hf hpc hclosure =>
    have hframe := htop hf
    have hstate := h.stateOk
    simp only [FrameOk, hpc] at hframe
    simp only [hf, StateOk, hpc] at hstate
    refine h.retop hf { top with pc := .closure, f := false } rfl s.state
      [.started top.id] (Or.inr ⟨_, rfl, rfl, by simp, trivial⟩) hstate ⟨?_, ?_⟩
    · rw [starts_append, hframe.2.1]
      simp [isStart]
    · rw [jumpedTo_append (by simp)]
      exact hframe.2.2
  | @consumed top rest hf hpc hclosure =>
    have hframe := htop hf
    simp only [FrameOk, hpc] at hframe
    rw [hframe.1] at hclosure
    cases hclosure
  | @leave top rest jumpResult hf hpc =>
    have hframe := htop hf
    have hnext := h.retop hf { top with pc := .finish jumpResult } rfl s.state.leave []
      (Or.inl rfl) rfl (by
        rw [List.append_nil]
        cases jumpResult <;> simp only [FrameOk, hpc] at hframe ⊢ <;> exact hframe)
    rwa [List.append_nil] at hnext
  | @failed top rest hf hpc =>
    have hframe := htop hf
    have hstate := h.stateOk
    simp only [FrameOk, hpc] at hframe
    simp only [hf, StateOk, hpc] at hstate
    obtain ⟨hstarts, active, hmem⟩ := hframe
    apply h.pop hf hpc
    refine ⟨hstate, ?_, active, List.mem_append_left _ hmem⟩
    rw [starts_append, hstarts]
    rfl
  | @succeeded top rest v hf hpc hv =>
    have hframe := htop hf
    have hstate := h.stateOk
    simp only [FrameOk, hpc] at hframe
    simp only [hf, StateOk, hpc] at hstate
    obtain ⟨hstarts, hjump, v', hv', hmem⟩ := hframe
    rw [hv] at hv'
    cases hv'
    apply h.pop hf hpc
    refine ⟨hstate, ?_, List.mem_append_left _ hmem, ?_⟩
    · rw [starts_append, hstarts]
      rfl
    · rw [jumpedTo_append (by simp)]
      exact hjump
  | @missing top rest hf hpc hv =>
    have hframe := htop hf
    simp only [FrameOk, hpc] at hframe
    obtain ⟨-, -, v, hv', -⟩ := hframe
    rw [hv] at hv'
    cases hv'
  | touch addr hf hpc => exact h
  | @ret v top rest hf hpc =>
    have hframe := htop hf
    simp only [FrameOk, hpc] at hframe
    refine h.retop hf { top with pc := .leave false, result := some v } rfl s.state
      [.value top.id v] (Or.inr ⟨_, rfl, rfl, by simp, trivial⟩) trivial
      ⟨?_, ?_, v, rfl, List.mem_append_right _ (List.mem_singleton.mpr rfl)⟩
    · rw [starts_append, hframe.1]
      rfl
    · rw [jumpedTo_append (by simp)]
      exact hframe.2
  | reraise addr found hf hpc hnot =>
    exact { h with crash := Or.inr ⟨addr, rfl⟩ }
  | wild addr hf hpc hin hto =>
    obtain ⟨-, hunwind⟩ := h.unwind_top hf hpc hin
    rw [hto] at hunwind
    cases hunwind
  | @jump addr top target rest below hf hpc hin hto =>
    have hframe := htop hf
    simp only [FrameOk, hpc] at hframe
    obtain ⟨hbuf, hunwind⟩ := h.unwind_top hf hpc hin
    rw [hto] at hunwind
    cases hunwind
    refine h.retop hf { top with pc := .leave true } rfl (handlerStores s.state addr)
      [.jumped addr s.state.jmpBuf (s.frames.map Frame.id)]
      (Or.inr ⟨_, rfl, hbuf, by simp, ⟨top.id, rest.map Frame.id, hbuf, by rw [hf]; rfl⟩⟩) trivial
      ⟨?_, s.frames.map Frame.id, ?_⟩
    · rw [starts_append, hframe.1]
      rfl
    · rw [hbuf]
      exact List.mem_append_right _ (List.mem_singleton.mpr rfl)

/-! ## What follows a jump -/

/-- INTERNAL: a call that is not in its closure makes its own next step, and nothing else
happens on the thread. -/
theorem only_next {act : FrameAct κ ρ} {top : Frame κ ρ} {rest : List (Frame κ ρ)}
    (hf : s.frames = top :: rest) (hpc : top.pc ≠ .closure)
    (hstep : CallStack.step act s = some s') : act = .next := by
  have hnot {top' : Frame κ ρ} {rest' : List (Frame κ ρ)} (hf' : s.frames = top' :: rest')
      (hpc' : top'.pc = .closure) : False := by
    rw [hf] at hf'
    cases hf'
    exact hpc hpc'
  cases (step_move hstep).2 with
  | call label hcode =>
    simp only [CallStack.inCode, hf, beq_iff_eq] at hcode
    exact absurd hcode hpc
  | touch addr hf' hpc' => exact (hnot hf' hpc').elim
  | ret v hf' hpc' => exact (hnot hf' hpc').elim
  | reraise addr found hf' hpc' => exact (hnot hf' hpc').elim
  | wild addr hf' hpc' => exact (hnot hf' hpc').elim
  | jump addr hf' hpc' => exact (hnot hf' hpc').elim
  | _ => rfl

/-- The thread returns from the call on top with the address of the jump, in two steps, and can
do nothing else before that. -/
def ReturnsFault (s : CallStack κ ρ) (id addr : ℕ) (rest : List (Frame κ ρ)) : Prop :=
  (∃ t, run CallStack.step [.next, .next] s = some t ∧ t.frames = rest ∧ t.crash = none ∧
    t.log = s.log ++ [.returned id (.error addr) false] ∧ t.state.inProtected = false) ∧
  ∀ acts t, run CallStack.step acts s = some t →
    acts = [] ∨ acts = [.next] ∨ ∃ more, acts = .next :: .next :: more

/-- INTERNAL: **the call that was jumped to returns the address.**
SOURCE: csrc/sigsetjmp_shim.c:39-41, signal/mod.rs:154-162 -/
theorem jump_returns {top : Frame κ ρ} {rest : List (Frame κ ρ)} {addr : ℕ}
    (hf : s.frames = { top with pc := .leave true } :: rest) (hcrash : s.crash = none)
    (haddr : s.state.faultAddr = addr) : ReturnsFault s top.id addr rest := by
  have hfirst : CallStack.step .next s =
      some { s with
        state := s.state.leave, frames := { top with pc := .finish true } :: rest } := by
    simp [CallStack.step, hcrash, CallStack.nextStep, hf]
  refine ⟨?_, ?_⟩
  · refine ⟨CallStack.returns { s with state := s.state.leave } top.id
      (.error s.state.leave.faultAddr) rest, ?_, rfl, hcrash, ?_, rfl⟩
    · rw [run_cons]
      refine ⟨_, hfirst, ?_⟩
      simp [run, CallStack.step, hcrash, CallStack.nextStep, CallStack.returns]
    · rw [← haddr]
      rfl
  · intro acts t h
    cases acts with
    | nil => exact Or.inl rfl
    | cons act acts' =>
      obtain ⟨u, hu, hrest⟩ := (run_cons act acts').mp h
      have hact := only_next hf (by simp) hu
      subst hact
      rw [hfirst, Option.some.injEq] at hu
      subst hu
      cases acts' with
      | nil => exact Or.inr (Or.inl rfl)
      | cons act' more =>
        obtain ⟨u', hu', -⟩ := (run_cons act' more).mp hrest
        have hact' := only_next rfl (by simp) hu'
        rw [hact']
        exact Or.inr (Or.inr ⟨more, rfl⟩)

/-- RESULT: **jumps only go to live checkpoints.** On a thread that begins outside of all calls,
after every sequence of calls of `with_sigbus_protection`, nested in any way, and of touches of
their closures, faulting or not: the thread has not crashed but by a signal that was raised
again; every jump went to the innermost call that had not returned, every call that returned did
so with the flag cleared and its closure started once, with the value of its closure if no jump
went to it and the address of the fault if one did. A touch whose fault is recovered finds the
checkpoint of the innermost call in the buffer, and that call then returns the address of the
touch before anything else happens on the thread.
SOURCE: signal/mod.rs:101-167, signal/handler.rs:30-62, csrc/sigsetjmp_shim.c:33-49 -/
theorem jumps_are_live (state : ThreadState) (nextId : ℕ) (acts : List (FrameAct κ ρ))
    (s : CallStack κ ρ) (hout : state.inProtected = false)
    (h : run CallStack.step acts (.idle state nextId) = some s) :
    (s.crash = none ∨ ∃ addr, s.crash = some (.reraised addr)) ∧
    (∀ e ∈ s.log, EventOk s.log e) ∧
    ∀ addr found s', CallStack.step (.fault addr found) s = some s' → s'.crash = none →
      ∃ top rest, s.frames = top :: rest ∧ top.pc = .closure ∧
        s.state.jmpBuf = some top.id ∧
        s'.log = s.log ++ [.jumped addr (some top.id) (s.frames.map Frame.id)] ∧
        ReturnsFault s' top.id addr rest := by
  have hsound : Sound s := reach_invariant Sound Sound.step acts (sound_idle state nextId hout) h
  refine ⟨hsound.crash, hsound.events, ?_⟩
  intro addr found s' hstep halive
  obtain ⟨hcrash, hmove⟩ := step_move hstep
  cases hmove with
  | reraise _ _ hf hpc hnot => cases halive
  | wild _ hf hpc hin hto => cases halive
  | @jump _ top target rest below hf hpc hin hto =>
    obtain ⟨hbuf, hunwind⟩ := hsound.unwind_top hf hpc hin
    rw [hto] at hunwind
    cases hunwind
    exact ⟨top, rest, hf, hpc, hbuf, by rw [hbuf], jump_returns rfl hcrash rfl⟩

/-- A call inside the closure of another one: the inner one faults and is recovered, and the
outer closure returns. -/
def faultInside : List (FrameAct Unit ℕ) :=
  [.call (), .next, .next, .next, .call (), .next, .next, .next, .fault 0x10000 true, .next, .next,
    .ret 7, .next, .next]

/-- What the thread went through. -/
def faultInsideLog : List (FrameEvent ℕ) :=
  [.started 0, .started 1, .jumped 0x10000 (some 1) [1, 0], .returned 1 (.error 0x10000) false,
    .value 0 7, .returned 0 (.ok 7) false]

/-- The inner call returns the address of its fault, and the outer one its value.
SOURCE: signal/mod.rs:101-167 -/
theorem jumps_are_live_faultInside :
    run CallStack.step faultInside (.idle ThreadState.new 0) =
      some { CallStack.idle ⟨some 1, false, 0x10000⟩ 2 with log := faultInsideLog } ∧
    ∀ e ∈ faultInsideLog, EventOk faultInsideLog e := by
  have hrun : run CallStack.step faultInside (.idle ThreadState.new 0) =
      some { CallStack.idle ⟨some 1, false, 0x10000⟩ 2 with log := faultInsideLog } := rfl
  exact ⟨hrun, (jumps_are_live _ _ _ _ rfl hrun).2.1⟩

end MmapShield.Analysis.Frames
