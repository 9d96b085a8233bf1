import MmapShield.Computation.Machine
import MmapShield.Model.Open
import MmapShield.Model.Signal
import Mathlib.Data.Fintype.Basic

/-!
# A process with any number of threads

Every thread opens mappings, drops them and runs protected accesses, one step at a
time. `Process.step page (t, act)` is one step of the thread `t`; a run of the process
is any list of such steps.

* `open` runs `SafeMmapOptions::open` up to the mapping. The kernel may place it at any
  range that does not wrap and is disjoint from every range that is still mapped.
  The steps of `registry::register` follow, and the mapping becomes live when `open`
  returns.
* `drop` takes a live mapping that nobody borrows, which is what Rust's ownership
  leaves to a call of `drop`. The steps of `registry::unregister` follow, and then the
  `munmap` of the field `raw`.
* `protect` starts a call of `with_sigbus_protection` over a live mapping: `read`,
  `write`, `read_into`, `probe`, the prefetch worker and `ReadGuard::read` all reach
  memory through it. Inside the closure the thread touches any addresses; a touch that
  faults raises SIGBUS on this thread.
* The handler tests its thread state, loads the published snapshot and then scans it,
  each in a step of its own. The scan of a snapshot that has been freed meanwhile reads
  whatever the allocator left there, the argument of `scan`.

`faulted` and `calls` record what happened to the calls of a thread, `loadedAt` the
number of mutations that were complete when the handler loaded; no step reads them.
-/

set_option autoImplicit false

namespace MmapShield.Model

open MmapShield.Computation

/-- Where a mapping is between its `mmap` and its `munmap`. -/
inductive MapPhase
  | mapped
  | registered
  | live
  | dropping
  | unregistered
  | unmapped
  deriving DecidableEq, Repr

/-- The published snapshot holds the region. -/
def MapPhase.isRegistered : MapPhase → Bool
  | .registered | .live | .dropping => true
  | _ => false

/-- The kernel has not unmapped the range. -/
def MapPhase.isMapped : MapPhase → Bool
  | .unmapped => false
  | _ => true

/-- The range of a mapping and its phase. -/
structure Mapping where
  ptr : ℕ
  len : ℕ
  phase : MapPhase
  deriving DecidableEq, Repr

/-- The entry `[ptr, ptr + len)` of a mapping. -/
def Mapping.region (x : Mapping) : RegisteredRegion where
  start := x.ptr
  stop := x.ptr + x.len

/-- A byte of the mapping. -/
def Mapping.has (x : Mapping) (addr : ℕ) : Prop := x.ptr ≤ addr ∧ addr < x.ptr + x.len

/-- Whether a mapping has an address can be evaluated. -/
instance (x : Mapping) (addr : ℕ) : Decidable (x.has addr) :=
  inferInstanceAs (Decidable (x.ptr ≤ addr ∧ addr < x.ptr + x.len))

/-- The next step of a call of `with_sigbus_protection`, or of the handler that
interrupted its closure.
SOURCE: signal/mod.rs:101-167, signal/handler.rs:30-62 -/
inductive ProtectPc
  | enter
  | sigsetjmp
  | closure
  | handler (addr : ℕ)
  | load (addr : ℕ)
  | scan (addr : ℕ) (snap : Option ℕ) (loadedAt : ℕ)
  | siglongjmp (addr : ℕ)
  | leave (jumpResult : Bool)
  deriving DecidableEq, Repr

/-- What a thread is doing. -/
inductive Control
  | idle
  | mutate (m : ℕ) (op : Mutation) (pc : MutationPc)
  | munmap (m : ℕ)
  | protect (m : ℕ) (pc : ProtectPc)
  deriving DecidableEq, Repr

/-- The thread is inside a protected access to the mapping `m`. -/
def Control.borrows (m : ℕ) : Control → Bool
  | .protect m' _ => decide (m' = m)
  | _ => false

/-- A call of `with_sigbus_protection` that has returned: the touch of its closure that
raised SIGBUS, if any, and the result. -/
structure CallRecord where
  map : ℕ
  faulted : Option ℕ
  result : Except ℕ Unit

/-- A thread; `frame` counts the calls of `with_sigbus_protection` it has started. -/
structure Thread where
  control : Control
  frame : ℕ
  faulted : Option ℕ
  calls : List CallRecord

/-- How a process dies: the handler raised the signal again, or it jumped to a
checkpoint whose frame has returned. -/
inductive Death (ι : Type)
  | reraise (t : ι) (addr : ℕ)
  | wildJump (t : ι)

/-- The shared state and the threads. `installed` is `HANDLER_INIT`, `mutex` is the
holder of `REGION_MUTEX`, `specific` is what `pthread_getspecific` returns under
`THREAD_STATE_KEY`, and `states` are the boxes these pointers point to. -/
structure Process (ι : Type) where
  registry : Registry
  mutex : Option ι
  installed : Bool
  maps : ℕ → Option Mapping
  nextMap : ℕ
  specific : ι → Option ℕ
  states : ℕ → ThreadState
  nextState : ℕ
  threads : ι → Thread
  death : Option (Death ι)

/-- What a thread is asked to do; `next` is the next step of the code it is in. -/
inductive Act
  | openMap (opts : SafeMmapOptions) (kernel : Kernel)
  | dropMap (m : ℕ)
  | protect (m : ℕ)
  | touch (addr : ℕ) (faults : Bool)
  | finish
  | scan (stale : List RegisteredRegion)
  | next

namespace Process

variable {ι : Type} [DecidableEq ι] [Fintype ι]

/-- The process before its first step. -/
def init (ι : Type) : Process ι where
  registry := Registry.new
  mutex := none
  installed := false
  maps := fun _ => none
  nextMap := 0
  specific := fun _ => none
  states := fun _ => ThreadState.new
  nextState := 0
  threads := fun _ => { control := .idle, frame := 0, faulted := none, calls := [] }
  death := none

/-- The code that the thread `t` is in. -/
def control (s : Process ι) (t : ι) : Control := (s.threads t).control

/-- The thread `t` becomes `th`. -/
def setThread (s : Process ι) (t : ι) (th : Thread) : Process ι :=
  { s with threads := Function.update s.threads t th }

/-- The thread `t` moves on to `c`. -/
def goto (s : Process ι) (t : ι) (c : Control) : Process ι :=
  s.setThread t { s.threads t with control := c }

/-- The mapping `m` moves on to `phase`. -/
def setPhase (s : Process ι) (m : ℕ) (phase : MapPhase) : Process ι :=
  { s with maps := Function.update s.maps m ((s.maps m).map fun x => { x with phase := phase }) }

/-- The thread state that the handler of `t` finds. -/
def stateOf (s : Process ι) (t : ι) : Option ThreadState := (s.specific t).map s.states

/-- The thread `t` changes its thread state. -/
def setState (s : Process ι) (t : ι) (f : ThreadState → ThreadState) : Process ι :=
  match s.specific t with
  | none => s
  | some p => { s with states := Function.update s.states p (f (s.states p)) }

/-- `thread_state::get_or_init`.
SOURCE: signal/thread_state.rs:77-97 -/
def getOrInit (s : Process ι) (t : ι) : Process ι :=
  match s.specific t with
  | some _ => s
  | none =>
    { s with
      states := Function.update s.states s.nextState ThreadState.new
      specific := Function.update s.specific t (some s.nextState)
      nextState := s.nextState + 1 }

/-- A range that `mmap(2)` may return: it does not wrap, and it is disjoint from every
range that has not been unmapped. -/
def mmapAllowed (s : Process ι) (ptr len : ℕ) : Bool :=
  decide (ptr + len < 2 ^ 64) &&
    (List.range s.nextMap).all fun m =>
      match s.maps m with
      | none => true
      | some x => !x.phase.isMapped || decide (x.ptr + x.len ≤ ptr) || decide (ptr + len ≤ x.ptr)

/-- The mapping that `openRaw` returned, before its registration.
SOURCE: mmap/mod.rs:392-395 -/
def addMap (s : Process ι) (t : ι) (raw : RawMmap) : Process ι :=
  let ptr := raw.ptr.toNat
  let len := raw.len.toNat
  { s with
    installed := true
    maps := Function.update s.maps s.nextMap (some { ptr := ptr, len := len, phase := .mapped })
    nextMap := s.nextMap + 1 }.goto t (.mutate s.nextMap (.register ptr len) .lock)

/-- No thread is inside a protected access to the mapping `m`. -/
def unborrowed (s : Process ι) (m : ℕ) : Bool :=
  decide (∀ t, (s.control t).borrows m = false)

/-- The phase of a mapping after the swap of a mutation. -/
def swappedPhase : Mutation → MapPhase
  | .register _ _ => .registered
  | .unregister _ => .unregistered

/-- One step of `register` or `unregister`.
SOURCE: signal/registry.rs:75-127 -/
def stepMutation (s : Process ι) (t : ι) (m : ℕ) (op : Mutation) (pc : MutationPc) :
    Option (Process ι) :=
  match pc with
  | .lock =>
    if s.mutex = none then some { s.goto t (.mutate m op .rotate) with mutex := some t }
    else none
  | .rotate => some { s.goto t (.mutate m op .load) with registry := rotateRetired s.registry }
  | .load => some (s.goto t (.mutate m op (.edit s.registry.published)))
  | .edit old =>
    match op.edit (old.map s.registry.heap) with
    | none =>
      some { (s.setPhase m (swappedPhase op)).goto t (.mutate m op .unlock) with
        registry := s.registry.skip }
    | some regions => some (s.goto t (.mutate m op (.swap regions)))
  | .swap regions =>
    some { (s.setPhase m (swappedPhase op)).goto t (.mutate m op .unlock) with
      registry := s.registry.publish regions }
  | .unlock =>
    match op with
    | .register _ _ => some { (s.setPhase m .live).goto t .idle with mutex := none }
    | .unregister _ => some { s.goto t (.munmap m) with mutex := none }

/-- The handler raises the signal again: the default action ends the process.
SOURCE: signal/handler.rs:65-72 -/
def restoreDefaultAndReraise (s : Process ι) (t : ι) (addr : ℕ) : Process ι :=
  { s with death := some (.reraise t addr) }

/-- The jump to the checkpoint in the buffer of the thread.
SOURCE: signal/handler.rs:56-61, csrc/sigsetjmp_shim.c:47-49 -/
def siglongjmp (s : Process ι) (t : ι) (m addr : ℕ) : Process ι :=
  let s' := s.setState t fun st => handlerStores st addr
  if (s'.stateOf t).bind ThreadState.jmpBuf = some (s.threads t).frame then
    s'.goto t (.protect m (.leave true))
  else { s' with death := some (.wildJump t) }

/-- The end of `with_sigbus_protection`.
SOURCE: signal/mod.rs:155-167 -/
def leave (s : Process ι) (t : ι) (m : ℕ) (jumpResult : Bool) : Process ι :=
  let s' := s.setState t ThreadState.leave
  let result : Except ℕ Unit :=
    if jumpResult then .error ((s'.stateOf t).elim 0 ThreadState.faultAddr) else .ok ()
  let th := s.threads t
  s'.setThread t
    { th with
      control := .idle
      calls := th.calls ++ [{ map := m, faulted := th.faulted, result := result }] }

/-- One step of a protected call or of the handler, those with a choice apart.
SOURCE: signal/mod.rs:101-167, signal/handler.rs:30-62 -/
def stepProtect (s : Process ι) (t : ι) (m : ℕ) (pc : ProtectPc) : Option (Process ι) :=
  match pc with
  | .enter => some ((s.setState t ThreadState.enter).goto t (.protect m .sigsetjmp))
  | .sigsetjmp =>
    some ((s.setState t fun st => st.sigsetjmp (s.threads t).frame).goto t (.protect m .closure))
  | .closure => none
  | .handler addr =>
    if handlerAdmits (s.stateOf t) then some (s.goto t (.protect m (.load addr)))
    else some (s.restoreDefaultAndReraise t addr)
  | .load addr =>
    some (s.goto t (.protect m (.scan addr s.registry.published s.registry.completed)))
  | .scan _ _ _ => none
  | .siglongjmp addr => some (s.siglongjmp t m addr)
  | .leave jumpResult => some (s.leave t m jumpResult)

/-- The start of a call of `with_sigbus_protection`.
SOURCE: signal/mod.rs:105-107 -/
def startProtect (s : Process ι) (t : ι) (m : ℕ) : Process ι :=
  ({ s with installed := true }.getOrInit t).setThread t
    { s.threads t with
      control := .protect m .enter
      frame := (s.threads t).frame + 1
      faulted := none }

/-- A touch inside a closure that raises SIGBUS. Without the handler the default action
ends the process. -/
def raise (s : Process ι) (t : ι) (m addr : ℕ) : Process ι :=
  if s.installed then
    s.setThread t
      { s.threads t with control := .protect m (.handler addr), faulted := some addr }
  else s.restoreDefaultAndReraise t addr

/-- What the handler reads when it scans the snapshot it loaded.
SOURCE: signal/registry.rs:141-153 -/
def scanned (s : Process ι) (snap : Option ℕ) (stale : List RegisteredRegion) :
    List RegisteredRegion :=
  match snap with
  | none => []
  | some i => if i ∈ s.registry.freed then stale else s.registry.heap i

/-- One step of the thread `t`. -/
def stepThread (page : Usize) (t : ι) (act : Act) (s : Process ι) : Option (Process ι) :=
  match act, s.control t with
  | .openMap opts kernel, .idle =>
    match opts.openRaw page kernel with
    | .error _ => some s
    | .ok raw =>
      if s.mmapAllowed raw.ptr.toNat raw.len.toNat then some (s.addMap t raw) else none
  | .dropMap m, .idle =>
    match s.maps m with
    | some ⟨ptr, _, .live⟩ =>
      if s.unborrowed m then
        some ((s.setPhase m .dropping).goto t (.mutate m (.unregister ptr) .lock))
      else none
    | _ => none
  | .protect m, .idle =>
    match s.maps m with
    | some ⟨_, _, .live⟩ => some (s.startProtect t m)
    | _ => none
  | .touch addr faults, .protect m .closure =>
    if faults then some (s.raise t m addr) else some s
  | .finish, .protect m .closure => some (s.goto t (.protect m (.leave false)))
  | .scan stale, .protect m (.scan addr snap _) =>
    if scanRegions (s.scanned snap stale) addr then
      some (s.goto t (.protect m (.siglongjmp addr)))
    else some (s.restoreDefaultAndReraise t addr)
  | .next, .mutate m op pc => s.stepMutation t m op pc
  | .next, .munmap m => some ((s.setPhase m .unmapped).goto t .idle)
  | .next, .protect m pc => s.stepProtect t m pc
  | _, _ => none

/-- One step of the process; a dead process takes none. -/
def step (page : Usize) (a : ι × Act) (s : Process ι) : Option (Process ι) :=
  match s.death with
  | some _ => none
  | none => stepThread page a.1 a.2 s

end Process

end MmapShield.Model
