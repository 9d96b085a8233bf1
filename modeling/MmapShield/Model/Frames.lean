import MmapShield.Model.Signal

/-!
# The calls of `with_sigbus_protection` on the stack of a thread

One thread, step by step: `with_sigbus_protection` (`signal/mod.rs:101-167`) with its
`mmap_guard_protected_call` and its trampoline, any number of them inside each other. A
`Frame` is a call that has not returned, with its local `CallCtx`; the closure of the
innermost frame touches memory, calls again or returns a value, in any order. A touch that
faults runs the handler, and its `siglongjmp` unwinds the stack to the frame whose checkpoint
is in the buffer, wherever that is.

A call has a label, which nothing here reads. `log` records what happened; no step reads it.
-/

set_option autoImplicit false

namespace MmapShield.Model

/-- Where a call is: before `in_protected = true`, before `sigsetjmp`, before the trampoline,
in its closure, after `mmap_guard_protected_call` returned, after `in_protected = false`.
SOURCE: signal/mod.rs:105-167, csrc/sigsetjmp_shim.c:33-45 -/
inductive FramePc
  | enter
  | sigsetjmp
  | trampoline
  | closure
  | leave (jumpResult : Bool)
  | finish (jumpResult : Bool)
  deriving DecidableEq, Repr

/-- A call that has not returned. `f` says that the closure has not been taken out of the
context, `result` is what the trampoline has put into it.
SOURCE: signal/mod.rs:109-117 -/
structure Frame (κ ρ : Type) where
  id : ℕ
  label : κ
  pc : FramePc
  f : Bool
  result : Option ρ
  deriving DecidableEq, Repr

/-- What ends the thread: the signal raised again with its default action, a jump to a frame
that is not on the stack, and the two `expect`s.
SOURCE: signal/handler.rs:39-54, signal/mod.rs:125-128, 166 -/
inductive Crash
  | reraised (addr : ℕ)
  | wildJump (jmpBuf : Option ℕ)
  | consumedClosure
  | missingResult
  deriving DecidableEq, Repr

/-- What a thread went through; `active` are the calls that have not returned, the innermost
first, and `inProtected` is the flag after a return. -/
inductive FrameEvent (ρ : Type)
  | started (frame : ℕ)
  | value (frame : ℕ) (value : ρ)
  | jumped (addr : ℕ) (jmpBuf : Option ℕ) (active : List ℕ)
  | returned (frame : ℕ) (result : Except ℕ ρ) (inProtected : Bool)

/-- The thread: its state, its stack with the innermost call first, the number of the next
call, and how it crashed. -/
structure CallStack (κ ρ : Type) where
  state : ThreadState
  frames : List (Frame κ ρ)
  nextId : ℕ
  crash : Option Crash
  log : List (FrameEvent ρ)

/-- What happens next: the closure on top, or the thread outside of all calls, calls
`with_sigbus_protection`; the call on top makes its next step; the closure on top touches
memory, touches it and faults, with the answer of `registry::contains`, or returns. -/
inductive FrameAct (κ ρ : Type)
  | call (label : κ)
  | next
  | touch (addr : ℕ)
  | fault (addr : ℕ) (found : Bool)
  | ret (value : ρ)
  deriving DecidableEq, Repr

variable {κ ρ : Type}

/-- A thread outside of all calls. The buffer may hold the checkpoint of an earlier call. -/
def CallStack.idle (state : ThreadState) (nextId : ℕ) : CallStack κ ρ where
  state := state
  frames := []
  nextId := nextId
  crash := none
  log := []

namespace CallStack

/-- Safe code of the caller runs: no call is on the stack, or the one on top is in its
closure. -/
def inCode (s : CallStack κ ρ) : Bool :=
  match s.frames with
  | [] => true
  | top :: _ => top.pc == .closure

/-- A call begins; its context holds the closure and no result.
SOURCE: signal/mod.rs:105-117 -/
def callStep (label : κ) (s : CallStack κ ρ) : Option (CallStack κ ρ) :=
  if s.inCode then
    some { s with
      frames := ⟨s.nextId, label, .enter, true, none⟩ :: s.frames
      nextId := s.nextId + 1 }
  else none

/-- The call `frame` returns.
SOURCE: signal/mod.rs:157-166 -/
def returns (s : CallStack κ ρ) (frame : ℕ) (result : Except ℕ ρ) (rest : List (Frame κ ρ)) :
    CallStack κ ρ :=
  { s with
    frames := rest
    log := s.log ++ [.returned frame result s.state.inProtected] }

/-- The next step of the call on top; the closure has its own.
SOURCE: signal/mod.rs:119-166, csrc/sigsetjmp_shim.c:39-44 -/
def nextStep (s : CallStack κ ρ) : Option (CallStack κ ρ) :=
  match s.frames with
  | [] => none
  | top :: rest =>
    match top.pc with
    | .enter =>
      some { s with
        state := s.state.enter, frames := { top with pc := .sigsetjmp } :: rest }
    | .sigsetjmp =>
      some { s with
        state := s.state.sigsetjmp top.id, frames := { top with pc := .trampoline } :: rest }
    | .trampoline =>
      if top.f then
        some { s with
          frames := { top with pc := .closure, f := false } :: rest
          log := s.log ++ [.started top.id] }
      else some { s with crash := some .consumedClosure }
    | .closure => none
    | .leave jumpResult =>
      some { s with
        state := s.state.leave, frames := { top with pc := .finish jumpResult } :: rest }
    | .finish true => some (s.returns top.id (.error s.state.faultAddr) rest)
    | .finish false =>
      match top.result with
      | some v => some (s.returns top.id (.ok v) rest)
      | none => some { s with crash := some .missingResult }

/-- The closure on top returns to the trampoline, which returns to `mmap_guard_protected_call`,
which returns 0.
SOURCE: signal/mod.rs:129-131, csrc/sigsetjmp_shim.c:43-44 -/
def retStep (v : ρ) (s : CallStack κ ρ) : Option (CallStack κ ρ) :=
  match s.frames with
  | [] => none
  | top :: rest =>
    if top.pc = .closure then
      some { s with
        frames := { top with pc := .leave false, result := some v } :: rest
        log := s.log ++ [.value top.id v] }
    else none

/-- The stack from the frame on that a jump goes to. -/
def unwind (frames : List (Frame κ ρ)) (jmpBuf : Option ℕ) : List (Frame κ ρ) :=
  frames.dropWhile fun frame => decide (some frame.id ≠ jmpBuf)

/-- A touch of the closure on top raises SIGBUS. The second return of `sigsetjmp` leaves
`mmap_guard_protected_call` with its result.
SOURCE: signal/handler.rs:30-62, csrc/sigsetjmp_shim.c:39-41 -/
def faultStep (addr : ℕ) (found : Bool) (s : CallStack κ ρ) : Option (CallStack κ ρ) :=
  match s.frames with
  | [] => none
  | top :: _ =>
    if top.pc = .closure then
      match sigbusHandler (fun _ => found) (some s.state) addr with
      | .reraise => some { s with crash := some (.reraised addr) }
      | .siglongjmp state =>
        match unwind s.frames state.jmpBuf with
        | [] => some { s with state := state, crash := some (.wildJump state.jmpBuf) }
        | target :: below =>
          some { s with
            state := state
            frames := { target with pc := .leave true } :: below
            log := s.log ++ [.jumped addr state.jmpBuf (s.frames.map Frame.id)] }
    else none

/-- A touch that does not fault changes nothing here. -/
def touchStep (s : CallStack κ ρ) : Option (CallStack κ ρ) :=
  match s.frames with
  | [] => none
  | top :: _ => if top.pc = .closure then some s else none

/-- One step of the thread; a thread that has crashed makes none. -/
def step (act : FrameAct κ ρ) (s : CallStack κ ρ) : Option (CallStack κ ρ) :=
  if s.crash.isSome then none
  else
    match act with
    | .call label => s.callStep label
    | .next => s.nextStep
    | .touch _ => s.touchStep
    | .fault addr found => s.faultStep addr found
    | .ret v => s.retStep v

end CallStack

end MmapShield.Model
