import MmapShield.Model.Error
import Mathlib.Logic.Basic

/-!
# Prefetch with a deadline

`prefetch_with_deadline` and `probe_pages` (`mmap/prefetch.rs`) as two threads, the caller
and the worker, that share a mutex with a slot for the result, a condition variable and a
cancellation flag. The schedule says who moves next, and with it which touches fault,
when a waiting caller wakes up and when the time is over. A touch that stalls is one that
the schedule does not come to. The worker does not panic, so no lock is poisoned.

The flag is loaded and stored with `Relaxed`: a load may miss a store of the other thread
for a while, and it never sees one that has not been made.

`touches`, `cancelledExit` and what `Timer.expired` holds are for the analysis only, no
step reads them.
-/

set_option autoImplicit false

namespace MmapShield.Model

/-- The arguments of `prefetch_with_deadline`; the timeout is in nanoseconds.
SOURCE: mmap/prefetch.rs:90-95 -/
structure PrefetchCall where
  basePtr : Usize
  offset : Usize
  len : Usize
  timeout : ℕ
  deriving DecidableEq, Repr

/-- Where the caller is.
SOURCE: mmap/prefetch.rs:105-149 -/
inductive CallerPc
  | spawn
  | lock
  | test
  | waiting
  | relock (timedOut : Bool)
  | retest (timedOut : Bool)
  | cancel
  | unlock (expired : Bool)
  | join (expired : Bool)
  | lockAgain
  | take
  | returned (result : Except AccessError Unit)

/-- The caller is in `wait_timeout`, where a notification reaches it. -/
def CallerPc.isWaiting : CallerPc → Bool
  | .waiting => true
  | _ => false

/-- Where the worker is; the loop of `probe_pages` has its condition, its look at the flag
and its touch as steps of their own.
SOURCE: mmap/prefetch.rs:35-66, 105-114 -/
inductive WorkerPc
  | unborn
  | installHandler
  | head (pos : Usize)
  | load (pos : Usize)
  | touch (pos : Usize)
  | lock (probeResult : Except AccessError Unit)
  | store (probeResult : Except AccessError Unit)
  | notifyOne
  | unlock
  | done

/-- Who holds the mutex. -/
inductive Holder
  | caller
  | worker
  deriving DecidableEq, Repr

/-- The time of `wait_timeout`: it runs from the wait on. Once it is over, `slot` is what
the slot held at that moment. -/
inductive Timer
  | unset
  | running
  | expired (slot : Option (Except AccessError Unit))

/-- A touch of the worker: the address, whether it raised SIGBUS, and whether the mapping
was still there. -/
structure Touch where
  addr : Usize
  fault : Bool
  mapped : Bool
  deriving DecidableEq, Repr

/-- The two threads and what they share. -/
structure Prefetch where
  caller : CallerPc
  worker : WorkerPc
  mutex : Option Holder
  slot : Option (Except AccessError Unit)
  cancelled : Bool
  notified : Bool
  timer : Timer
  mapped : Bool
  touches : List Touch
  cancelledExit : Bool

/-- Why a waiting caller wakes up. -/
inductive Wake
  | notified
  | spurious
  | timedOut
  deriving DecidableEq, Repr

/-- What happens next: a step of the caller, its wake-up, a step of the worker, its look at
the flag, its touch, the end of the time, or the drop of the mapping. -/
inductive PrefetchAct
  | caller
  | wake (cause : Wake)
  | worker
  | load (seen : Bool)
  | touch (fault : Bool)
  | expire
  | dropMapping
  deriving DecidableEq, Repr

/-- The action is one of the caller alone. -/
def PrefetchAct.ofCaller : PrefetchAct → Bool
  | .caller | .wake _ => true
  | _ => false

namespace Prefetch

/-- The call is about to spawn its worker. -/
def init : Prefetch where
  caller := .spawn
  worker := .unborn
  mutex := none
  slot := none
  cancelled := false
  notified := false
  timer := .unset
  mapped := true
  touches := []
  cancelledExit := false

/-- The error of a call that ran out of time.
SOURCE: mmap/prefetch.rs:127-131, 144-148 -/
def timeoutError (call : PrefetchCall) : AccessError :=
  .timeout call.offset call.len call.timeout

/-- What the caller makes of the slot at the end.
SOURCE: mmap/prefetch.rs:141-149 -/
def conclude (call : PrefetchCall) : Option (Except AccessError Unit) → Except AccessError Unit
  | some (.ok ()) => .ok ()
  | some (.error e) => .error e
  | none => .error (timeoutError call)

/-- The next step of the caller. The wait gives up the mutex; `join` waits for the end of
the worker.
SOURCE: mmap/prefetch.rs:105-149 -/
def callerStep (call : PrefetchCall) (s : Prefetch) : Option Prefetch :=
  match s.caller with
  | .spawn => some { s with caller := .lock, worker := .installHandler }
  | .lock =>
    if s.mutex = none then some { s with caller := .test, mutex := some .caller } else none
  | .test =>
    if s.slot.isNone then some { s with caller := .waiting, mutex := none, timer := .running }
    else some { s with caller := .unlock false }
  | .relock timedOut =>
    if s.mutex = none then some { s with caller := .retest timedOut, mutex := some .caller }
    else none
  | .retest timedOut =>
    if timedOut && s.slot.isNone then some { s with caller := .cancel }
    else some { s with caller := .unlock false }
  | .cancel => some { s with caller := .unlock true, cancelled := true }
  | .unlock expired => some { s with caller := .join expired, mutex := none }
  | .join expired =>
    match s.worker with
    | .done =>
      some { s with
        caller := if expired then .returned (.error (timeoutError call)) else .lockAgain }
    | _ => none
  | .lockAgain =>
    if s.mutex = none then some { s with caller := .take, mutex := some .caller } else none
  | .take =>
    some { s with caller := .returned (conclude call s.slot), slot := none, mutex := none }
  | .waiting | .returned _ => none

/-- The caller wakes up: notified, without a reason, or because the time is over.
SOURCE: mmap/prefetch.rs:120 -/
def wakeStep (cause : Wake) (s : Prefetch) : Option Prefetch :=
  match s.caller, cause, s.timer with
  | .waiting, .notified, _ => if s.notified then some { s with caller := .relock false } else none
  | .waiting, .spurious, _ => some { s with caller := .relock false }
  | .waiting, .timedOut, .expired _ => some { s with caller := .relock true }
  | _, _, _ => none

/-- The next step of the worker, its look at the flag and its touches apart. The sum in the
condition of the loop wraps, as it does in a release build.
SOURCE: mmap/prefetch.rs:41-45, 65, 105-114 -/
def workerStep (call : PrefetchCall) (s : Prefetch) : Option Prefetch :=
  match s.worker with
  | .installHandler => some { s with worker := .head call.offset }
  | .head pos =>
    if pos < call.offset + call.len then some { s with worker := .load pos }
    else some { s with worker := .lock (.ok ()) }
  | .lock probeResult =>
    if s.mutex = none then some { s with worker := .store probeResult, mutex := some .worker }
    else none
  | .store probeResult => some { s with worker := .notifyOne, slot := some probeResult }
  | .notifyOne =>
    some { s with worker := .unlock, notified := s.notified || s.caller.isWaiting }
  | .unlock => some { s with worker := .done, mutex := none }
  | .unborn | .load _ | .touch _ | .done => none

/-- The look at the flag before a touch; a cancelled probe ends with `Ok(())`.
SOURCE: mmap/prefetch.rs:45-47 -/
def loadStep (seen : Bool) (s : Prefetch) : Option Prefetch :=
  match s.worker with
  | .load pos =>
    if seen then
      if s.cancelled then some { s with worker := .lock (.ok ()), cancelledExit := true } else none
    else some { s with worker := .touch pos }
  | _ => none

/-- The touch of a page.
SOURCE: mmap/prefetch.rs:50-62 -/
def touchStep (page : Usize) (call : PrefetchCall) (fault : Bool) (s : Prefetch) :
    Option Prefetch :=
  match s.worker with
  | .touch pos =>
    let addr := call.basePtr + pos
    some { s with
      worker := if fault then .lock (.error (.sigbus addr)) else .head (pos + page)
      touches := s.touches ++ [⟨addr, fault, s.mapped⟩] }
  | _ => none

/-- The time is over; it runs while the caller has not returned and after.
SOURCE: mmap/prefetch.rs:120 -/
def expireStep (s : Prefetch) : Option Prefetch :=
  match s.timer with
  | .running => some { s with timer := .expired s.slot }
  | _ => none

/-- The mapping is borrowed during the call, so that it can be dropped only afterwards.
SOURCE: mmap/mod.rs:766-787 -/
def dropStep (s : Prefetch) : Option Prefetch :=
  match s.caller with
  | .returned _ => some { s with mapped := false }
  | _ => none

/-- One step of the protocol. -/
def step (page : Usize) (call : PrefetchCall) (act : PrefetchAct) (s : Prefetch) :
    Option Prefetch :=
  match act with
  | .caller => callerStep call s
  | .wake cause => wakeStep cause s
  | .worker => workerStep call s
  | .load seen => loadStep seen s
  | .touch fault => touchStep page call fault s
  | .expire => expireStep s
  | .dropMapping => dropStep s

end Prefetch

end MmapShield.Model
