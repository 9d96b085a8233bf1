import MmapShield.Model.Sharing

/-!
# A shared mapping that lives long

Any number of threads that call `read`, `write`, `read_into`, `probe`,
`prefetch_with_timeout` and `reset_poison` on one shared mapping. The first four are the calls
of `Sharing`, cut as there; `prefetch_with_timeout` is cut at its checks and at the return of
`prefetch_with_deadline`, whose result the schedule chooses; `reset_poison` is its two stores.
A call that the closure of a read makes is one of another thread here.

`overflowed` says that a `fetch_add(1) + 1` has exceeded `u32::MAX`. No step reads it: a
release build goes on with the wrapped sum.
-/

set_option autoImplicit false

namespace MmapShield.Model

/-- SOURCE: mmap/mod.rs:474-477 -/
def SafeMmap.withMaxSigbus (self : SafeMmap) (max : UInt32) : SafeMmap :=
  { self with maxSigbus := max }

/-- `u32::MAX`. -/
def u32Max : UInt32 := 0xFFFFFFFF

/-- Where a thread is in a call that is not one of `Sharing`; `away` is nowhere in one.
SOURCE: mmap/mod.rs:766-787, 1008-1011 -/
inductive LongPc
  | away
  | check (offset len : Usize)
  | bounds (offset len : Usize)
  | prefetching (offset len : Usize)
  | zeroing
  deriving DecidableEq, Repr

/-- The shared mapping with its calls, and the threads in the two other calls. -/
structure Resetting (ι : Type) where
  share : Sharing ι
  long : ι → LongPc
  overflowed : Bool

/-- What a thread is asked to do: a step of a call of `Sharing`, to start a prefetch, to take
the next step of it, to go on with the result of `prefetch_with_deadline`, or to take the first
and the second step of a reset. -/
inductive ResetAct
  | share (act : ShareAct)
  | prefetch (offset len : Usize)
  | next
  | result (result : Except AccessError Unit)
  | clear
  | zero

namespace Resetting

variable {ι : Type} [DecidableEq ι]

/-- No call has started. -/
def init (ι : Type) (mmap : SafeMmap) : Resetting ι where
  share := .init ι mmap
  long := fun _ => .away
  overflowed := false

/-- The thread `t` moves on to `c` in one of the two calls. -/
def turn (s : Resetting ι) (t : ι) (c : LongPc) : Resetting ι :=
  { s with long := Function.update s.long t c }

/-- The thread `t` goes on at `c` of the calls of `Sharing`, which is the same code. -/
def rejoin (s : Resetting ι) (t : ι) (c : CallPc) : Resetting ι :=
  { s.turn t .away with share := s.share.goto t c }

/-- The thread is about to take the step `fetch_add(1) + 1`. -/
def counts (s : Resetting ι) (t : ι) (act : ShareAct) : Bool :=
  match act, s.share.pc t with
  | .next, .record _ => true
  | _, _ => false

/-- A step of a call of `Sharing`. -/
def shareStep (page : Usize) (s : Resetting ι) (t : ι) (act : ShareAct) :
    Option (Resetting ι) :=
  (Sharing.step page (t, act) s.share).map fun share =>
    { s with
      share := share
      overflowed := s.overflowed ||
        (s.counts t act && decide (2 ^ 32 ≤ s.share.mmap.sigbusCount.toNat + 1)) }

/-- What `prefetch_with_timeout` does with the result of its worker.
SOURCE: mmap/mod.rs:778-786 -/
def resultStep (s : Resetting ι) (t : ι) (offset len : Usize) (result : Except AccessError Unit) :
    Resetting ι :=
  match result with
  | .error (.sigbus faultAddress) => s.rejoin t (.record (.sigbus faultAddress))
  | .error (.timeout o l d) =>
    { s.turn t .away with
      share := { s.share.goto t (.ret (.error (.timeout o l d))) with
        events := s.share.events ++ s.share.mmap.emitEvent (.prefetchTimeout offset len) } }
  | _ => s.rejoin t (.ret result)

/-- One step of the thread `t`. A thread begins a prefetch or a reset when it is in no call.
SOURCE: mmap/mod.rs:503-585, 668-686, 766-839, 1008-1061 -/
def step (page : Usize) (a : ι × ResetAct) (s : Resetting ι) : Option (Resetting ι) :=
  let t := a.1
  match a.2, s.long t, s.share.pc t with
  | .share act, .away, _ => s.shareStep page t act
  | .prefetch offset len, .away, .idle => some (s.turn t (.check offset len))
  | .next, .check offset len, _ =>
    if s.share.mmap.poisoned then some (s.rejoin t .refused)
    else some (s.turn t (.bounds offset len))
  | .next, .bounds offset len, _ =>
    match s.share.mmap.checkBounds offset len with
    | .error e => some (s.rejoin t (.ret (.error e)))
    | .ok () => some (s.turn t (.prefetching offset len))
  | .result result, .prefetching offset len, _ => some (s.resultStep t offset len result)
  | .clear, .away, .idle =>
    some { s.turn t .zeroing with
      share := { s.share with mmap := { s.share.mmap with poisoned := false } } }
  | .zero, .zeroing, _ =>
    some { s.turn t .away with
      share := { s.share with mmap := { s.share.mmap with sigbusCount := 0 } } }
  | _, _, _ => none

end Resetting

end MmapShield.Model
