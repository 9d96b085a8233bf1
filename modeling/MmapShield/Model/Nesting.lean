import MmapShield.Model.Signal

/-!
# Nested protected calls

A closure that runs under `with_sigbus_protection` may call it again, through any
operation on any mapping. A `Body` is what such a closure does: it touches memory, each
touch with its fault, and calls `with_sigbus_protection` with further bodies, going on
with what they return. All of this is one thread, so there is one `ThreadState`.

`Body.exec` runs a body. A jump leaves every body up to the call whose checkpoint is in
the buffer; a signal that is raised again leaves all of them. `log` records what happened;
nothing reads it.
-/

set_option autoImplicit false

namespace MmapShield.Model

/-- What a closure does; `ρ` is the type of the values that closures return. -/
inductive Body (ρ : Type)
  | ret (value : ρ)
  | touch (addr : ℕ) (faults : Bool) (next : Body ρ)
  | call (f : Body ρ) (next : Except ℕ ρ → Body ρ)

/-- What a thread went through. `active` are the calls that have not returned, the
innermost first; `before` and `after` are the thread state around a call that returned. -/
inductive NestEvent (ρ : Type)
  | started (frame : ℕ)
  | jumped (addr : ℕ) (jmpBuf : Option ℕ) (active : List ℕ)
  | reraised (addr : ℕ) (active : List ℕ)
  | returned (frame : ℕ) (result : Except ℕ ρ) (before after : ThreadState) (active : List ℕ)

/-- The thread; `frames` is the number of the next call. -/
structure Nest (ρ : Type) where
  state : ThreadState
  frames : ℕ
  log : List (NestEvent ρ)

/-- How a body ends: with its value, by a jump to the checkpoint in the buffer, or with the
process. -/
inductive Ending (ρ : Type)
  | value (value : ρ)
  | jump (jmpBuf : Option ℕ)
  | dead

/-- How a call of `with_sigbus_protection` ends; a jump to another call passes through. -/
inductive CallEnding (ρ : Type)
  | returned (result : Except ℕ ρ)
  | jump (jmpBuf : Option ℕ)
  | dead

variable {ρ : Type}

namespace Nest

/-- The statements of `with_sigbus_protection` before its closure.
SOURCE: signal/mod.rs:138, csrc/sigsetjmp_shim.c:39 -/
def start (w : Nest ρ) : Nest ρ where
  state := w.state.enter.sigsetjmp w.frames
  frames := w.frames + 1
  log := w.log ++ [.started w.frames]

/-- The statements after it, in the call number `frame` that returns `result`.
SOURCE: signal/mod.rs:155 -/
def leave (w : Nest ρ) (frame : ℕ) (result : Except ℕ ρ) (before : ThreadState)
    (active : List ℕ) : Nest ρ :=
  { w with
    state := w.state.leave
    log := w.log ++ [.returned frame result before w.state.leave active] }

/-- A touch that raises SIGBUS.
SOURCE: signal/handler.rs:30-62 -/
def raise (r : Registry) (w : Nest ρ) (addr : ℕ) (active : List ℕ) : Ending ρ × Nest ρ :=
  match sigbusHandler (contains r) (some w.state) addr with
  | .reraise => (.dead, { w with log := w.log ++ [.reraised addr active] })
  | .siglongjmp state =>
    (.jump state.jmpBuf,
      { w with state := state, log := w.log ++ [.jumped addr state.jmpBuf active] })

end Nest

/-- What `with_sigbus_protection` makes of the end of its closure: a jump to its own
checkpoint returns the address that the handler stored.
SOURCE: csrc/sigsetjmp_shim.c:39-44, signal/mod.rs:155-167 -/
def finishCall (frame : ℕ) (before : ThreadState) (active : List ℕ)
    (end_ : Ending ρ × Nest ρ) : CallEnding ρ × Nest ρ :=
  match end_ with
  | (.value v, w) => (.returned (.ok v), w.leave frame (.ok v) before active)
  | (.jump target, w) =>
    if target = some frame then
      (.returned (.error w.state.faultAddr),
        w.leave frame (.error w.state.faultAddr) before active)
    else (.jump target, w)
  | (.dead, w) => (.dead, w)

/-- Runs a body inside the calls `active`. -/
def Body.exec (r : Registry) : Body ρ → List ℕ → Nest ρ → Ending ρ × Nest ρ
  | .ret v, _, w => (.value v, w)
  | .touch addr faults next, active, w =>
    if faults then w.raise r addr active else next.exec r active w
  | .call f next, active, w =>
    match finishCall w.frames w.state active (f.exec r (w.frames :: active) w.start) with
    | (.returned x, w') => (next x).exec r active w'
    | (.jump target, w') => (.jump target, w')
    | (.dead, w') => (.dead, w')

/-- `with_sigbus_protection` of the closure `f`, inside the calls `active`.
SOURCE: signal/mod.rs:101-167 -/
def withSigbusProtection (r : Registry) (f : Body ρ) (active : List ℕ) (w : Nest ρ) :
    CallEnding ρ × Nest ρ :=
  finishCall w.frames w.state active (f.exec r (w.frames :: active) w.start)

/-- INTERNAL: a nested call is a call.
SOURCE: signal/mod.rs:101-167 -/
theorem Body.exec_call (r : Registry) (f : Body ρ) (next : Except ℕ ρ → Body ρ)
    (active : List ℕ) (w : Nest ρ) :
    (Body.call f next).exec r active w =
      match withSigbusProtection r f active w with
      | (.returned x, w') => (next x).exec r active w'
      | (.jump target, w') => (.jump target, w')
      | (.dead, w') => (.dead, w') := by
  simp only [Body.exec, withSigbusProtection]

/-- INTERNAL: the handler inside a protected block, at an address of the registry.
SOURCE: signal/handler.rs:46-61 -/
theorem Nest.raise_found {r : Registry} {w : Nest ρ} {addr : ℕ} {active : List ℕ}
    (hin : w.state.inProtected = true) (hfound : contains r addr = true) :
    w.raise r addr active =
      (.jump w.state.jmpBuf,
        { w with
          state := handlerStores w.state addr
          log := w.log ++ [.jumped addr w.state.jmpBuf active] }) := by
  unfold Nest.raise sigbusHandler
  simp only [hin, hfound, Bool.not_true, Bool.false_eq_true, if_false]
  rfl

/-- INTERNAL: the handler at an address that is not in the registry.
SOURCE: signal/handler.rs:51-54 -/
theorem Nest.raise_not_found {r : Registry} {w : Nest ρ} {addr : ℕ} {active : List ℕ}
    (hfound : contains r addr = false) :
    w.raise r addr active = (.dead, { w with log := w.log ++ [.reraised addr active] }) := by
  unfold Nest.raise sigbusHandler
  simp only [hfound, Bool.not_false, if_true, ite_self]

end MmapShield.Model
