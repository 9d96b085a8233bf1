import MmapShield.Model.Access
import Mathlib.Logic.Function.Basic

/-!
# One mapping and many threads

Any number of threads call `read`, `write`, `read_into` and `probe` on one shared mapping,
each as often as it likes. A call is cut at every access to the two atomics, at the
protected access and at the callback: the load of `poisoned`, the load of `sigbus_count`
for the error, the bounds checks, the access or each touch of a probe, and then the steps
of `record_sigbus_from`. Which accesses fault, and where, is up to the schedule.

`events` are the events that the callback has received and `returns` the results of the
calls that have returned; `recorded` counts the `fetch_add`s. No step reads them.
-/

set_option autoImplicit false

namespace MmapShield.Model

/-- A call, with the words that its checks look at. -/
inductive CallKind
  | read (start stop : Usize)
  | write (offset len : Usize)
  | readInto (offset len : Usize)
  | probe (offset len : Usize)
  deriving DecidableEq, Repr

/-- Where a thread is in its call. -/
inductive CallPc
  | idle
  | check (call : CallKind)
  | refused
  | bounds (call : CallKind)
  | access
  | probing (pos stop : Usize)
  | record (err : AccessError)
  | emitSigbus (err : AccessError) (count : UInt32)
  | store (err : AccessError) (count : UInt32)
  | emitPoisoned (err : AccessError) (count : UInt32)
  | ret (result : Except AccessError Unit)

/-- The mapping, the threads, and what has come out of them. -/
structure Sharing (ι : Type) where
  mmap : SafeMmap
  pc : ι → CallPc
  events : List MmapEvent
  returns : List (Except AccessError Unit)
  recorded : ℕ

/-- What a thread is asked to do: to start a call, to take the next step of it, or to make
an access that faults at an address or does not fault. -/
inductive ShareAct
  | call (call : CallKind)
  | next
  | touch (fault : Option Usize)

namespace Sharing

variable {ι : Type} [DecidableEq ι]

/-- No call has started. -/
def init (ι : Type) (mmap : SafeMmap) : Sharing ι where
  mmap := mmap
  pc := fun _ => .idle
  events := []
  returns := []
  recorded := 0

/-- The thread `t` moves on to `c`. -/
def goto (s : Sharing ι) (t : ι) (c : CallPc) : Sharing ι :=
  { s with pc := Function.update s.pc t c }

/-- The checks between the gate and the memory.
SOURCE: mmap/guard.rs:99-108, mmap/mod.rs:556-565, 669-674, 817 -/
def boundsStep (mmap : SafeMmap) (call : CallKind) : CallPc :=
  match call with
  | .read start stop =>
    if (checkedAdd start (stop - start)).elim true fun e => decide (e > mmap.raw.len) then
      .ret (.error (.outOfBounds start (stop - start) mmap.raw.len))
    else .access
  | .write offset len =>
    match mmap.checkBounds offset len with
    | .error e => .ret (.error e)
    | .ok () =>
      match mmap.raw.asMutPtr with
      | none => .ret (.error (.io (.new .permissionDenied "mapping is read-only")))
      | some _ => .access
  | .readInto offset len =>
    match mmap.checkBounds offset len with
    | .error e => .ret (.error e)
    | .ok () => .access
  | .probe offset len =>
    match mmap.checkBounds offset len with
    | .error e => .ret (.error e)
    | .ok () => .probing offset (offset + len)

/-- The protected access of a call that is not a probe.
SOURCE: mmap/mod.rs:511-515, 577-584, 831-838 -/
def accessStep (fault : Option Usize) : CallPc :=
  match fault with
  | none => .ret (.ok ())
  | some faultAddress => .record (.sigbus faultAddress)

/-- One round of the loop of a probe. An error of any kind goes to `record_sigbus_from`.
SOURCE: mmap/mod.rs:676-685, mmap/guard.rs:99-108 -/
def probeStep (page : Usize) (mmap : SafeMmap) (pos stop : Usize) (fault : Option Usize) :
    CallPc :=
  if pos < stop then
    if (checkedAdd pos 1).elim true fun e => decide (e > mmap.raw.len) then
      .record (.outOfBounds pos 1 mmap.raw.len)
    else
      match fault with
      | none => .probing (pos + page) stop
      | some faultAddress => .record (.sigbus faultAddress)
  else .ret (.ok ())

/-- One step of the thread `t`.
SOURCE: mmap/mod.rs:503-585, 668-686, 815-839, 1013-1061 -/
def step (page : Usize) (a : ι × ShareAct) (s : Sharing ι) : Option (Sharing ι) :=
  let t := a.1
  match a.2, s.pc t with
  | .call call, .idle => some (s.goto t (.check call))
  | .next, .check call =>
    some (s.goto t (if s.mmap.poisoned then .refused else .bounds call))
  | .next, .refused => some (s.goto t (.ret (.error (.poisoned s.mmap.sigbusCount))))
  | .next, .bounds call => some (s.goto t (boundsStep s.mmap call))
  | .touch fault, .access => some (s.goto t (accessStep fault))
  | .touch fault, .probing pos stop => some (s.goto t (probeStep page s.mmap pos stop fault))
  | .next, .record err =>
    let count := s.mmap.sigbusCount + 1
    some { s.goto t (.emitSigbus err count) with
      mmap := { s.mmap with sigbusCount := count }
      recorded := s.recorded + 1 }
  | .next, .emitSigbus err count =>
    some { s.goto t (if count ≥ s.mmap.maxSigbus then .store err count else .ret (.error err)) with
      events := s.events ++ s.mmap.emitEvent (.sigbus (SafeMmap.faultAddressOf err)) }
  | .next, .store err count =>
    some { s.goto t (.emitPoisoned err count) with mmap := { s.mmap with poisoned := true } }
  | .next, .emitPoisoned err count =>
    some { s.goto t (.ret (.error err)) with
      events := s.events ++ s.mmap.emitEvent (.poisoned count) }
  | .next, .ret result =>
    some { s.goto t .idle with returns := s.returns ++ [result] }
  | _, _ => none

end Sharing

end MmapShield.Model
