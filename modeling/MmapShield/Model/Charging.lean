import MmapShield.Model.Access
import MmapShield.Model.Advice
import MmapShield.Model.Frames
import Mathlib.Logic.Function.Basic

/-!
# Operations on several mappings

Any number of threads, each with its stack of protected calls, that use any number of live
mappings. A protected call belongs to an operation on one mapping, `Op`: the closure of a read
is code of the caller, which may touch any memory and begin operations on any mapping, with the
slice it was given as data; the other closures copy between two spans or touch one byte.

An operation checks its arguments, makes its protected calls and records the fault that one of
them returned. `prefetch_with_timeout` is a worker that is started on a thread of its own; a
fault of the worker is pending until the caller records it or has given up.

`returned`, `charges` and `faults` are for the analysis only, no step reads them.
-/

set_option autoImplicit false

namespace MmapShield.Model

/-- The operation that a protected call belongs to, with the spans that its closure copies
between, or with the position of the page it touches and the end of the range.
SOURCE: mmap/mod.rs:503-585, 668-686, 815-839, mmap/guard.rs:93-128, mmap/prefetch.rs:35-66 -/
inductive Op (ι : Type)
  | read (m : ι)
  | guardRead (m : ι)
  | write (m : ι) (offset len data : Usize)
  | readInto (m : ι) (offset len buf : Usize)
  | probe (m : ι) (pos stop : Usize)
  | probePages (m : ι) (pos stop : Usize)
  deriving DecidableEq, Repr

/-- The mapping of an operation. -/
def Op.mapping {ι : Type} : Op ι → ι
  | .read m | .guardRead m | .write m _ _ _ | .readInto m _ _ _ | .probe m _ _
  | .probePages m _ _ => m

/-- The closure is code of the caller. -/
def Op.ofCaller {ι : Type} : Op ι → Bool
  | .read _ | .guardRead _ => true
  | _ => false

/-- A call of an operation; `data` and `buf` are where the slice of the caller starts. -/
inductive OpCall
  | read (start stop : Usize)
  | guardRead (offset len : Usize)
  | write (offset len data : Usize)
  | readInto (offset len buf : Usize)
  | probe (offset len : Usize)
  deriving DecidableEq, Repr

/-- The check of a guard.
SOURCE: mmap/guard.rs:99-108 -/
def RawMmap.checkGuard (raw : RawMmap) (offset len : Usize) : Except AccessError Unit :=
  if raw.exceeds offset len then .error (.outOfBounds offset len raw.len) else .ok ()

/-- The checks of an operation, in the order that it makes them.
SOURCE: mmap/mod.rs:508-511, 556-565, 669-670, 816-817, mmap/guard.rs:99-108 -/
def SafeMmap.checkCall (self : SafeMmap) : OpCall → Except AccessError Unit
  | .read start stop => do
    self.checkPoisoned
    self.raw.checkGuard start (stop - start)
  | .guardRead offset len => self.raw.checkGuard offset len
  | .write offset len _ => do
    self.checkPoisoned
    self.checkBounds offset len
    match self.raw.asMutPtr with
    | none => .error (.io (.new .permissionDenied "mapping is read-only"))
    | some _ => .ok ()
  | .readInto offset len _ => do
    self.checkPoisoned
    self.checkBounds offset len
  | .probe offset len => do
    self.checkPoisoned
    self.checkBounds offset len

/-- The address is one of the `len` bytes from `base` on. -/
def inSpan (base len addr : Usize) : Bool :=
  decide (base.toNat ≤ addr.toNat ∧ addr.toNat < base.toNat + len.toNat)

/-- The mappings, the threads, the faults of workers that their callers have not recorded, and
what happened. -/
structure Charging (ι τ : Type) where
  mmaps : ι → SafeMmap
  threads : τ → CallStack (Op ι) Unit
  pending : List (ι × Usize)
  returned : List (ι × AccessError)
  charges : List (ι × AccessError)
  faults : List Usize

/-- What happens next: a thread begins an operation, makes a step of its protected call, touches
memory, touches it and faults, or ends a closure; a prefetch starts its worker on an idle thread,
the worker sees the cancellation flag, the caller records the fault of its worker or has given
up; the poison of a mapping is reset. -/
inductive ChargeAct (ι τ : Type)
  | begin (t : τ) (m : ι) (call : OpCall)
  | next (t : τ)
  | touch (t : τ) (addr : Usize)
  | fault (t : τ) (addr : Usize)
  | ret (t : τ)
  | prefetch (t : τ) (m : ι) (offset len : Usize)
  | cancel (t : τ)
  | collect (m : ι) (addr : Usize)
  | giveUp (m : ι) (addr : Usize)
  | resetPoison (m : ι)
  deriving DecidableEq, Repr

variable {ι τ : Type} [DecidableEq ι] [DecidableEq τ]

namespace Charging

/-- Mappings that have been opened, and threads outside of all calls. -/
def start (mmaps : ι → SafeMmap) : Charging ι τ where
  mmaps := mmaps
  threads := fun _ => .idle .new 0
  pending := []
  returned := []
  charges := []
  faults := []

/-- `registry::contains`, with the live mappings registered.
SOURCE: signal/registry.rs, mmap/mod.rs:395 -/
def found (live : List ι) (s : Charging ι τ) (addr : Usize) : Bool :=
  live.any fun m => inSpan (s.mmaps m).raw.ptr (s.mmaps m).raw.len addr

/-- The thread runs code of the caller. -/
def inUserCode (s : Charging ι τ) (t : τ) : Bool :=
  match (s.threads t).frames with
  | [] => true
  | top :: _ => top.label.ofCaller && top.pc == .closure

/-- The closure of the operation touches the address.
SOURCE: mmap/mod.rs:573-577, 677, 827-831, mmap/prefetch.rs:50-54 -/
def mayTouch (s : Charging ι τ) (addr : Usize) : Op ι → Bool
  | .read _ | .guardRead _ => true
  | .write m offset len data =>
    inSpan ((s.mmaps m).raw.ptr + offset) len addr || inSpan data len addr
  | .readInto m offset len buf =>
    inSpan ((s.mmaps m).raw.ptr + offset) len addr || inSpan buf len addr
  | .probe m pos _ | .probePages m pos _ => addr == (s.mmaps m).raw.ptr + pos

/-- The thread makes a step of its stack. -/
def stack (s : Charging ι τ) (t : τ) (act : FrameAct (Op ι) Unit) : Option (Charging ι τ) :=
  (CallStack.step act (s.threads t)).map fun th =>
    { s with threads := Function.update s.threads t th }

/-- The operation on `m` returns the error `e`. -/
def report (s : Charging ι τ) (m : ι) (e : AccessError) : Charging ι τ :=
  { s with returned := s.returned ++ [(m, e)] }

/-- The operation on `m` records the error `e` and returns it.
SOURCE: mmap/mod.rs:513-516, 580-583, 678-681, 778-779, 834-837 -/
def charge (s : Charging ι τ) (m : ι) (e : AccessError) : Charging ι τ :=
  { s with
    mmaps := Function.update s.mmaps m ((s.mmaps m).recordSigbusFrom e).1
    charges := s.charges ++ [(m, e)]
    returned := s.returned ++ [(m, e)] }

/-- The loop of `probe` at a position.
SOURCE: mmap/mod.rs:676-683 -/
def probeLoop (s : Charging ι τ) (t : τ) (m : ι) (pos stop : Usize) : Option (Charging ι τ) :=
  if pos < stop then
    match (s.mmaps m).raw.checkGuard pos 1 with
    | .error e => some (s.charge m e)
    | .ok () => s.stack t (.call (.probe m pos stop))
  else some s

/-- The loop of `probe_pages` at a position; the look at the flag is `cancel`.
SOURCE: mmap/prefetch.rs:44-63 -/
def probePagesLoop (s : Charging ι τ) (t : τ) (m : ι) (pos stop : Usize) :
    Option (Charging ι τ) :=
  if pos < stop then s.stack t (.call (.probePages m pos stop)) else some s

/-- An operation begins.
SOURCE: mmap/mod.rs:503-585, 668-686, 815-839, mmap/guard.rs:93-128 -/
def beginStep (s : Charging ι τ) (t : τ) (m : ι) (call : OpCall) : Option (Charging ι τ) :=
  if s.inUserCode t then
    match (s.mmaps m).checkCall call with
    | .error e => some (s.report m e)
    | .ok () =>
      match call with
      | .read _ _ => s.stack t (.call (.read m))
      | .guardRead _ _ => s.stack t (.call (.guardRead m))
      | .write offset len data => s.stack t (.call (.write m offset len data))
      | .readInto offset len buf => s.stack t (.call (.readInto m offset len buf))
      | .probe offset len => s.probeLoop t m offset (offset + len)
  else none

/-- What an operation does with the result of its protected call. A guard records nothing.
SOURCE: mmap/guard.rs:117-127, mmap/mod.rs:513-517, 580-584, 678-683, 834-838,
mmap/prefetch.rs:57-63 -/
def resume (page : Usize) (s : Charging ι τ) (t : τ) (op : Op ι) (result : Except ℕ Unit) :
    Option (Charging ι τ) :=
  match op, result with
  | .guardRead m, .error addr => some (s.report m (.sigbus (UInt64.ofNat addr)))
  | .probePages m _ _, .error addr =>
    some { s with pending := s.pending ++ [(m, UInt64.ofNat addr)] }
  | op, .error addr => some (s.charge op.mapping (.sigbus (UInt64.ofNat addr)))
  | .probe m pos stop, .ok () => s.probeLoop t m (pos + page) stop
  | .probePages m pos stop, .ok () => s.probePagesLoop t m (pos + page) stop
  | _, .ok () => some s

/-- The result that the call on top is about to return to its operation. -/
def returning (th : CallStack (Op ι) Unit) : Option (Op ι × Except ℕ Unit) :=
  match th.frames with
  | [] => none
  | top :: _ =>
    match top.pc with
    | .finish true => some (top.label, .error th.state.faultAddr)
    | .finish false => top.result.map fun v => (top.label, .ok v)
    | _ => none

/-- The next step of the protected call on top; one that returns gives its operation the
result. -/
def nextStep (page : Usize) (s : Charging ι τ) (t : τ) : Option (Charging ι τ) :=
  match s.stack t .next with
  | none => none
  | some s' =>
    match returning (s.threads t) with
    | none => some s'
    | some (op, result) => s'.resume page t op result

/-- A touch of the closure on top, which faults or not. -/
def touchStep (live : List ι) (s : Charging ι τ) (t : τ) (addr : Usize) (faults : Bool) :
    Option (Charging ι τ) :=
  match (s.threads t).frames with
  | [] => none
  | top :: _ =>
    if s.mayTouch addr top.label then
      if faults then
        ({ s with faults := s.faults ++ [addr] } : Charging ι τ).stack t
          (.fault addr.toNat (s.found live addr))
      else s.stack t (.touch addr.toNat)
    else none

/-- `prefetch_with_timeout` starts its worker, on a thread that does nothing else.
SOURCE: mmap/mod.rs:772-776, mmap/prefetch.rs:105-108 -/
def prefetchStep (s : Charging ι τ) (t : τ) (m : ι) (offset len : Usize) :
    Option (Charging ι τ) :=
  if (s.threads t).frames.isEmpty then
    match (s.mmaps m).checkCall (.probe offset len) with
    | .error e => some (s.report m e)
    | .ok () => s.probePagesLoop t m offset (offset + len)
  else none

/-- A touch of the worker returns, and the worker sees the flag and ends. A worker that sees it
before its first touch has done nothing.
SOURCE: mmap/prefetch.rs:44-47, 57-63 -/
def cancelStep (s : Charging ι τ) (t : τ) : Option (Charging ι τ) :=
  match returning (s.threads t) with
  | some (.probePages _ _ _, .ok ()) => s.stack t .next
  | _ => none

/-- One step. -/
def step (live : List ι) (page : Usize) (act : ChargeAct ι τ) (s : Charging ι τ) :
    Option (Charging ι τ) :=
  match act with
  | .begin t m call => s.beginStep t m call
  | .next t => s.nextStep page t
  | .touch t addr => s.touchStep live t addr false
  | .fault t addr => s.touchStep live t addr true
  | .ret t => s.stack t (.ret ())
  | .prefetch t m offset len => s.prefetchStep t m offset len
  | .cancel t => s.cancelStep t
  | .collect m addr =>
    if (m, addr) ∈ s.pending then
      some (charge { s with pending := s.pending.erase (m, addr) } m (.sigbus addr))
    else none
  | .giveUp m addr =>
    if (m, addr) ∈ s.pending then some { s with pending := s.pending.erase (m, addr) } else none
  | .resetPoison m =>
    some { s with mmaps := Function.update s.mmaps m (s.mmaps m).resetPoison }

end Charging

end MmapShield.Model
