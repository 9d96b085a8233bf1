import MmapShield.Computation.Once
import Mathlib.Algebra.Group.Nat.Defs

/-!
# Who answers SIGBUS

`signal::install_handler()` is called by every `open`, every guard, every protected call and every
prefetch worker, on any thread and at any time; `HANDLER_INIT` lets one of the calls run
`sigaction(2)`. The disposition of SIGBUS belongs to the process: other code may call
`sigaction(2)` too, before and after. A call that returned goes on with what it installed the
handler for, which is `past` here.

`sigbus_handler` calls `sigaction(2)` as well: when it has nothing to go back to, it restores the
default action and raises SIGBUS again. Which of the two it does is open here. SIGBUS may come to a
thread at any time, also inside the handler, which is installed with `SA_NODEFER`, but a jump out
of the handler does not come from within an installation, whose code touches no mapping.
-/

set_option autoImplicit false

namespace MmapShield.Model

open MmapShield.Computation

/-- What SIGBUS does: the default action, `sigbus_handler`, or a handler of other code. -/
inductive Disposition
  | default
  | shield
  | other (handler : ℕ)
  deriving DecidableEq, Repr

/-- Where a call of `sigbus_handler` is: it has begun, or it has restored the default action and is
about to raise SIGBUS.
SOURCE: signal/handler.rs:65-72 -/
inductive RaisePc
  | entered
  | restored
  deriving DecidableEq, Repr

/-- `HANDLER_INIT` with the threads that install, the disposition of the process, the calls of
`sigbus_handler` on each thread, the innermost first, and whether SIGBUS has ended the process.
SOURCE: signal/handler.rs:22 -/
structure Installing (ι : Type) where
  handlerInit : Once ι
  disposition : Disposition
  handlers : ι → List RaisePc
  dead : Bool

/-- A thread takes a step of an installation, in which the end of the body is the answer of
`sigaction(2)`; other code calls `sigaction(2)`; SIGBUS comes to a thread; its handler jumps out,
restores the default action, or raises SIGBUS. -/
inductive InstallAct (ι : Type)
  | install (t : ι) (act : OnceAct)
  | replace (disposition : Disposition)
  | sigbus (t : ι)
  | jump (t : ι)
  | restore (t : ι)
  | raise (t : ι)
  deriving DecidableEq, Repr

namespace Installing

variable {ι : Type} [DecidableEq ι]

/-- No call has been made; the disposition is what the process has started with. -/
def init (ι : Type) (disposition : Disposition) : Installing ι where
  handlerInit := .init ι
  disposition := disposition
  handlers := fun _ => []
  dead := false

/-- The closure of `call_once` with the answer of `sigaction(2)`; its assertion panics when the
answer is not 0.
SOURCE: signal/handler.rs:83-95 -/
def sigaction (act : OnceAct) (disposition : Disposition) : Disposition :=
  match act with
  | .body true => .shield
  | _ => disposition

/-- The calls of the handler on a thread. -/
def setHandlers (s : Installing ι) (t : ι) (handlers : List RaisePc) : Installing ι :=
  { s with handlers := Function.update s.handlers t handlers }

/-- SIGBUS comes to a thread that is in the calls `handlers` of the handler. A handler of other
code returns. -/
def deliver (s : Installing ι) (t : ι) (handlers : List RaisePc) : Installing ι :=
  match s.disposition with
  | .default => { s.setHandlers t handlers with dead := true }
  | .shield => s.setHandlers t (.entered :: handlers)
  | .other _ => s.setHandlers t handlers

/-- One step; a process that is dead makes none, and a thread in a handler no other one.
SOURCE: signal/handler.rs:30-72, 82-96 -/
def step (a : InstallAct ι) (s : Installing ι) : Option (Installing ι) :=
  if s.dead then none
  else
    match a with
    | .install t act =>
      if s.handlers t = [] then
        (Once.step (t, act) s.handlerInit).map fun handlerInit =>
          { s with handlerInit := handlerInit, disposition := sigaction act s.disposition }
      else none
    | .replace disposition => some { s with disposition := disposition }
    | .sigbus t => some (s.deliver t (s.handlers t))
    | .jump t =>
      match s.handlers t, s.handlerInit.pc t with
      | .entered :: _, .outside | .entered :: _, .past => some (s.setHandlers t [])
      | _, _ => none
    | .restore t =>
      match s.handlers t with
      | .entered :: rest =>
        some { s.setHandlers t (.restored :: rest) with disposition := .default }
      | _ => none
    | .raise t =>
      match s.handlers t with
      | .restored :: rest => some (s.deliver t rest)
      | _ => none

end Installing

end MmapShield.Model
