import MmapShield.Model.Registry

/-!
# The signal layer of one thread

`signal/thread_state.rs`, `signal/handler.rs` and the statements of
`with_sigbus_protection` (`signal/mod.rs:101-167`) that touch the state of the
thread. A checkpoint is the number of the call of `with_sigbus_protection` whose
`sigsetjmp` stored it, so a buffer that no `sigsetjmp` has filled holds none.
-/

set_option autoImplicit false

namespace MmapShield.Model

/-- SOURCE: signal/thread_state.rs:36-40 -/
structure ThreadState where
  jmpBuf : Option ℕ
  inProtected : Bool
  faultAddr : ℕ
  deriving DecidableEq, Repr

/-- SOURCE: signal/thread_state.rs:43-49 -/
def ThreadState.new : ThreadState where
  jmpBuf := none
  inProtected := false
  faultAddr := 0

/-- SOURCE: signal/mod.rs:138 -/
def ThreadState.enter (state : ThreadState) : ThreadState := { state with inProtected := true }

/-- The `sigsetjmp` of `mmap_guard_protected_call`, in the call number `frame`.
SOURCE: csrc/sigsetjmp_shim.c:39 -/
def ThreadState.sigsetjmp (state : ThreadState) (frame : ℕ) : ThreadState :=
  { state with jmpBuf := some frame }

/-- SOURCE: signal/mod.rs:155 -/
def ThreadState.leave (state : ThreadState) : ThreadState := { state with inProtected := false }

/-- The two tests of the handler that come before the registry: the state pointer is
not null, and the thread is in a protected block.
SOURCE: signal/handler.rs:37-49 -/
def handlerAdmits (state : Option ThreadState) : Bool :=
  match state with
  | none => false
  | some st => st.inProtected

/-- What the handler stores before it jumps.
SOURCE: signal/handler.rs:56-57 -/
def handlerStores (state : ThreadState) (faultAddr : ℕ) : ThreadState :=
  { state with faultAddr := faultAddr, inProtected := false }

/-- How the handler ends: it restores the default action and raises the signal again,
or it jumps to the checkpoint in the buffer. -/
inductive HandlerExit
  | reraise
  | siglongjmp (state : ThreadState)
  deriving DecidableEq, Repr

/-- The handler, when nothing runs between the two steps of `registry::contains`.
SOURCE: signal/handler.rs:30-62 -/
def sigbusHandler (found : ℕ → Bool) (state : Option ThreadState) (faultAddr : ℕ) :
    HandlerExit :=
  match state with
  | none => .reraise
  | some st =>
    if !st.inProtected then .reraise
    else if !found faultAddr then .reraise
    else .siglongjmp (handlerStores st faultAddr)

end MmapShield.Model
