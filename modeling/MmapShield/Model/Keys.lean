import MmapShield.Model.Signal
import Mathlib.Logic.Function.Basic

/-!
# The pthread key of the thread states

`signal/thread_state.rs` with the handler as its reader, step by step and on any number of
threads. `get_or_init` creates the key in the closure of `KEY_INIT`, publishes it in
`THREAD_STATE_KEY`, whose first value is 0, and gives the thread its state; the handler loads the
key and then looks up the value of its thread.

Other libraries create keys and set values under their own. `pthread_key_create` returns any key
that is not in use, and `pthread_setspecific` may fail. A thread that exits has its values set to
null one by one, each before its destructor runs; destructors of other libraries may run accesses
again. Values that are left after some rounds of that stay when the thread ends.

SIGBUS can come at any time, also inside the handler, which is installed with `SA_NODEFER`. What
the handler reads in the state and in the registry is open here: it jumps out of whatever the
thread was doing, or it raises the signal again.

`published` and `derefs` are for the analysis only, no step reads them.
-/

set_option autoImplicit false

namespace MmapShield.Model

/-- Who created a key. -/
inductive KeyOwner
  | own
  | library
  deriving DecidableEq, Repr

/-- A value under a key: null, a pointer of another library, or one to a `ThreadState`. -/
inductive KeyValue
  | null
  | library (ptr : ℕ)
  | state (id : ℕ)
  deriving DecidableEq, Repr

/-- SOURCE: signal/thread_state.rs:56 -/
inductive OnceState (τ : Type)
  | new
  | running (t : τ)
  | complete
  | poisoned
  deriving DecidableEq, Repr

/-- Where a thread is in `get_or_init`: outside, at `call_once`, in its closure before the key is
created and before it is stored, at the end of the closure, before the key is loaded, before the
value is looked up, before a state is allocated, before it is set.
SOURCE: signal/thread_state.rs:77-97 -/
inductive InitPc
  | idle
  | callOnce
  | create
  | store (key : ℕ)
  | complete
  | load
  | get (key : ℕ)
  | alloc (key : ℕ)
  | set (key id : ℕ)
  deriving DecidableEq, Repr

/-- Where a call of the handler is: before it loads the key, and before it looks up the value,
with whether the key had been published at the load.
SOURCE: signal/handler.rs:37 -/
inductive HandlerPc
  | enter
  | loaded (key : ℕ) (published : Bool)
  deriving DecidableEq, Repr

/-- The life of a thread. -/
inductive Life
  | unborn
  | running
  | exiting
  | ended
  deriving DecidableEq, Repr

/-- A thread, with its calls of the handler, the innermost first, and the state whose destructor
is about to run. -/
structure KeyThread where
  life : Life
  pc : InitPc
  handlers : List HandlerPc
  destroying : Option ℕ
  deriving DecidableEq, Repr

/-- A pointer that the handler of a thread dereferenced, and the thread whose `get_or_init`
allocated the state there, if there is one that has not been destroyed. -/
structure Deref (τ : Type) where
  thread : τ
  ptr : KeyValue
  allocator : Option τ

/-- The process. `heap` has the states that have not been destroyed, with their threads. -/
structure Keys (τ : Type) where
  installed : Bool
  keys : ℕ → Option KeyOwner
  keyInit : OnceState τ
  threadStateKey : ℕ
  heap : ℕ → Option τ
  nextId : ℕ
  specific : τ → ℕ → KeyValue
  threads : τ → KeyThread
  dead : Bool
  published : Bool
  derefs : List (Deref τ)

/-- What happens next: a thread starts, exits or is gone; another library creates a key or sets a
value; a thread opens a mapping or begins a protected access, which makes its steps one by one,
with the key that `pthread_key_create` returns or its failure, and with `pthread_setspecific` as it
succeeds or fails; a value of an exiting thread is set to null, and its destructor runs; SIGBUS
is delivered, and the handler loads the key and uses the value. -/
inductive KeyAct (τ : Type)
  | spawn (t : τ)
  | exit (t : τ)
  | finish (t : τ)
  | libraryCreate (key : ℕ)
  | librarySet (t : τ) (key : ℕ) (ptr : Option ℕ)
  | openMapping (t : τ)
  | access (t : τ)
  | next (t : τ)
  | create (t : τ) (key : ℕ)
  | createFails (t : τ)
  | setFails (t : τ)
  | cleanup (t : τ) (key : ℕ)
  | destroy (t : τ)
  | sigbus (t : τ)
  | handlerKey (t : τ)
  | handlerState (t : τ) (jumps : Bool)
  deriving DecidableEq, Repr

/-- The thread runs code other than that of a handler or of the destructor. -/
def KeyThread.inCode (th : KeyThread) : Bool :=
  (th.life == .running || th.life == .exiting) && th.handlers.isEmpty && th.destroying.isNone

variable {τ : Type}

namespace Keys

/-- SOURCE: signal/thread_state.rs:54-56 -/
def init : Keys τ where
  installed := false
  keys := fun _ => none
  keyInit := .new
  threadStateKey := 0
  heap := fun _ => none
  nextId := 0
  specific := fun _ _ => .null
  threads := fun _ => ⟨.unborn, .idle, [], none⟩
  dead := false
  published := false
  derefs := []

/-- The thread whose `get_or_init` allocated the state at a pointer. -/
def allocator (s : Keys τ) : KeyValue → Option τ
  | .state id => s.heap id
  | _ => none

variable [DecidableEq τ]

/-- The thread `t` replaced. -/
def setThread (s : Keys τ) (t : τ) (th : KeyThread) : Keys τ :=
  { s with threads := Function.update s.threads t th }

/-- The thread `t` goes on to `pc` in `get_or_init`. -/
def goto (s : Keys τ) (t : τ) (pc : InitPc) : Keys τ :=
  s.setThread t { s.threads t with pc := pc }

/-- `pthread_setspecific` -/
def setSpecific (s : Keys τ) (t : τ) (key : ℕ) (value : KeyValue) : Keys τ :=
  { s with specific := Function.update s.specific t (Function.update (s.specific t) key value) }

/-- The next step of `get_or_init`; a poisoned `Once` panics.
SOURCE: signal/thread_state.rs:77-97 -/
def nextStep (s : Keys τ) (t : τ) : Option (Keys τ) :=
  match (s.threads t).pc with
  | .idle | .create => none
  | .callOnce =>
    match s.keyInit with
    | .new => some (goto { s with keyInit := .running t } t .create)
    | .running _ => none
    | .complete => some (s.goto t .load)
    | .poisoned => some (s.goto t .idle)
  | .store key => some (goto { s with threadStateKey := key, published := true } t .complete)
  | .complete => some (goto { s with keyInit := .complete } t .load)
  | .load => some (s.goto t (.get s.threadStateKey))
  | .get key =>
    match s.specific t key with
    | .null => some (s.goto t (.alloc key))
    | _ => some (s.goto t .idle)
  | .alloc key =>
    some (goto { s with
      heap := Function.update s.heap s.nextId (some t)
      nextId := s.nextId + 1 } t (.set key s.nextId))
  | .set key id => some ((s.setSpecific t key (.state id)).goto t .idle)

/-- `pthread_key_create` returns a key, or fails, and the assertion poisons the `Once`.
SOURCE: signal/thread_state.rs:80-81 -/
def createStep (s : Keys τ) (t : τ) (key : Option ℕ) : Option (Keys τ) :=
  match (s.threads t).pc, key with
  | .create, some key =>
    if s.keys key = none then
      some (goto { s with keys := Function.update s.keys key (some .own) } t (.store key))
    else none
  | .create, none => some (goto { s with keyInit := .poisoned } t .idle)
  | _, _ => none

/-- `pthread_setspecific` fails, which nobody looks at: `get_or_init` returns a state that is not
under the key.
SOURCE: signal/thread_state.rs:93-96 -/
def setFailsStep (s : Keys τ) (t : τ) : Option (Keys τ) :=
  match (s.threads t).pc with
  | .set _ _ => some (s.goto t .idle)
  | _ => none

/-- A value of an exiting thread is set to null; the state behind it is destroyed next. -/
def cleanupStep (s : Keys τ) (t : τ) (key : ℕ) : Option (Keys τ) :=
  match s.specific t key with
  | .null => none
  | .library _ => some (s.setSpecific t key .null)
  | .state id =>
    some ((s.setSpecific t key .null).setThread t { s.threads t with destroying := some id })

/-- SOURCE: signal/thread_state.rs:59-63 -/
def destroyStep (s : Keys τ) (t : τ) : Option (Keys τ) :=
  match (s.threads t).handlers, (s.threads t).destroying with
  | [], some id =>
    some (setThread { s with heap := Function.update s.heap id none } t
      { s.threads t with destroying := none })
  | _, _ => none

/-- Without the handler, SIGBUS kills the process.
SOURCE: signal/handler.rs:82-96 -/
def sigbusStep (s : Keys τ) (t : τ) : Option (Keys τ) :=
  let th := s.threads t
  if th.life = .running ∨ th.life = .exiting then
    if s.installed then some (s.setThread t { th with handlers := .enter :: th.handlers })
    else some { s with dead := true }
  else none

/-- SOURCE: signal/handler.rs:37, signal/thread_state.rs:69-71 -/
def handlerKeyStep (s : Keys τ) (t : τ) : Option (Keys τ) :=
  match (s.threads t).handlers with
  | .enter :: rest =>
    some (s.setThread t
      { s.threads t with handlers := .loaded s.threadStateKey s.published :: rest })
  | _ => none

/-- A null pointer raises the signal again, which kills the process; any other is dereferenced.
SOURCE: signal/handler.rs:37-61 -/
def handlerStateStep (s : Keys τ) (t : τ) (jumps : Bool) : Option (Keys τ) :=
  match (s.threads t).handlers with
  | .loaded key _ :: _ =>
    match s.specific t key with
    | .null => some { s with dead := true }
    | ptr =>
      let used : Keys τ := { s with derefs := s.derefs ++ [⟨t, ptr, s.allocator ptr⟩] }
      if jumps then some (used.setThread t { s.threads t with handlers := [], pc := .idle })
      else some { used with dead := true }
  | _ => none

/-- One step; a process that is dead makes none. -/
def step (act : KeyAct τ) (s : Keys τ) : Option (Keys τ) :=
  if s.dead then none
  else
    match act with
    | .spawn t =>
      if (s.threads t).life = .unborn then
        some (s.setThread t { s.threads t with life := .running })
      else none
    | .exit t =>
      if (s.threads t).inCode ∧ (s.threads t).pc = .idle then
        some (s.setThread t { s.threads t with life := .exiting })
      else none
    | .finish t =>
      if (s.threads t).inCode ∧ (s.threads t).pc = .idle ∧ (s.threads t).life = .exiting then
        some (s.setThread t { s.threads t with life := .ended })
      else none
    | .libraryCreate key =>
      if s.keys key = none then
        some { s with keys := Function.update s.keys key (some .library) }
      else none
    | .librarySet t key ptr =>
      if (s.threads t).inCode ∧ (s.threads t).pc = .idle ∧ s.keys key = some .library then
        some (s.setSpecific t key (ptr.elim .null .library))
      else none
    | .openMapping t =>
      if (s.threads t).inCode ∧ (s.threads t).pc = .idle then some { s with installed := true }
      else none
    | .access t =>
      if (s.threads t).inCode ∧ (s.threads t).pc = .idle then
        some (goto { s with installed := true } t .callOnce)
      else none
    | .next t => if (s.threads t).inCode then s.nextStep t else none
    | .create t key => if (s.threads t).inCode then s.createStep t (some key) else none
    | .createFails t => if (s.threads t).inCode then s.createStep t none else none
    | .setFails t => if (s.threads t).inCode then s.setFailsStep t else none
    | .cleanup t key =>
      if (s.threads t).inCode ∧ (s.threads t).pc = .idle ∧ (s.threads t).life = .exiting then
        s.cleanupStep t key
      else none
    | .destroy t => s.destroyStep t
    | .sigbus t => s.sigbusStep t
    | .handlerKey t => s.handlerKeyStep t
    | .handlerState t jumps => s.handlerStateStep t jumps

end Keys

end MmapShield.Model
