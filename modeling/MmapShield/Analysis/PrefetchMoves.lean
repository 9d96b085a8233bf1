import MmapShield.Model.Prefetch

/-!
# What one step of the timed prefetch does

`Prefetch.Move` lists what a step of the caller, of the worker, of the clock and of the owner of
the mapping can do: the point of the code that it is taken at, what it has checked there, and
the state that it leads to. `Prefetch.step_move` is the only place where the step function is
taken apart; every invariant is proved over the moves.
-/

set_option autoImplicit false

namespace MmapShield.Analysis

open MmapShield.Model

variable {page : Usize} {call : PrefetchCall} {s s' : Prefetch}

/-- What a step can do to the two threads.
SOURCE: mmap/prefetch.rs:35-66, 90-150 -/
inductive Prefetch.Move (page : Usize) (call : PrefetchCall) (s : Prefetch) :
    PrefetchAct → Prefetch → Prop
  | spawn (hc : s.caller = .spawn) :
      Move page call s .caller { s with caller := .lock, worker := .installHandler }
  | lock (hc : s.caller = .lock) (hfree : s.mutex = none) :
      Move page call s .caller { s with caller := .test, mutex := some .caller }
  | wait (hc : s.caller = .test) (hslot : s.slot = none) :
      Move page call s .caller { s with caller := .waiting, mutex := none, timer := .running }
  | found (hc : s.caller = .test) (hslot : s.slot ≠ none) :
      Move page call s .caller { s with caller := .unlock false }
  | relock (timedOut : Bool) (hc : s.caller = .relock timedOut) (hfree : s.mutex = none) :
      Move page call s .caller { s with caller := .retest timedOut, mutex := some .caller }
  | giveUp (hc : s.caller = .retest true) (hslot : s.slot = none) :
      Move page call s .caller { s with caller := .cancel }
  | goOn (timedOut : Bool) (hc : s.caller = .retest timedOut)
      (hkept : ¬ (timedOut = true ∧ s.slot = none)) :
      Move page call s .caller { s with caller := .unlock false }
  | cancel (hc : s.caller = .cancel) :
      Move page call s .caller { s with caller := .unlock true, cancelled := true }
  | unlock (expired : Bool) (hc : s.caller = .unlock expired) :
      Move page call s .caller { s with caller := .join expired, mutex := none }
  | joined (hc : s.caller = .join false) (hdone : s.worker = .done) :
      Move page call s .caller { s with caller := .lockAgain }
  | timedOut (hc : s.caller = .join true) (hdone : s.worker = .done) :
      Move page call s .caller
        { s with caller := .returned (.error (Prefetch.timeoutError call)) }
  | lockAgain (hc : s.caller = .lockAgain) (hfree : s.mutex = none) :
      Move page call s .caller { s with caller := .take, mutex := some .caller }
  | take (hc : s.caller = .take) :
      Move page call s .caller
        { s with caller := .returned (Prefetch.conclude call s.slot), slot := none, mutex := none }
  | wake (cause : Wake) (timedOut : Bool) (hc : s.caller = .waiting)
      (htimer : timedOut = true → ∃ slot, s.timer = .expired slot) :
      Move page call s (.wake cause) { s with caller := .relock timedOut }
  | install (hw : s.worker = .installHandler) :
      Move page call s .worker { s with worker := .head call.offset }
  | enter (pos : Usize) (hw : s.worker = .head pos) (hlt : pos < call.offset + call.len) :
      Move page call s .worker { s with worker := .load pos }
  | leave (pos : Usize) (hw : s.worker = .head pos) (hstop : ¬ pos < call.offset + call.len) :
      Move page call s .worker { s with worker := .lock (.ok ()) }
  | acquire (result : Except AccessError Unit) (hw : s.worker = .lock result)
      (hfree : s.mutex = none) :
      Move page call s .worker { s with worker := .store result, mutex := some .worker }
  | store (result : Except AccessError Unit) (hw : s.worker = .store result) :
      Move page call s .worker { s with worker := .notifyOne, slot := some result }
  | notify (hw : s.worker = .notifyOne) :
      Move page call s .worker
        { s with worker := .unlock, notified := s.notified || s.caller.isWaiting }
  | release (hw : s.worker = .unlock) :
      Move page call s .worker { s with worker := .done, mutex := none }
  | stop (pos : Usize) (hw : s.worker = .load pos) (hset : s.cancelled = true) :
      Move page call s (.load true) { s with worker := .lock (.ok ()), cancelledExit := true }
  | look (pos : Usize) (hw : s.worker = .load pos) :
      Move page call s (.load false) { s with worker := .touch pos }
  | touch (fault : Bool) (pos : Usize) (hw : s.worker = .touch pos) :
      Move page call s (.touch fault)
        { s with
          worker := if fault then .lock (.error (.sigbus (call.basePtr + pos)))
            else .head (pos + page)
          touches := s.touches ++ [⟨call.basePtr + pos, fault, s.mapped⟩] }
  | expire (htimer : s.timer = .running) :
      Move page call s .expire { s with timer := .expired s.slot }
  | dropMapping (result : Except AccessError Unit) (hc : s.caller = .returned result) :
      Move page call s .dropMapping { s with mapped := false }

/-- INTERNAL: a step of the caller is one of its moves.
SOURCE: mmap/prefetch.rs:105-149 -/
theorem Prefetch.callerStep_move (hstep : Prefetch.callerStep call s = some s') :
    Prefetch.Move page call s .caller s' := by
  unfold Prefetch.callerStep at hstep
  cases hc : s.caller with
  | spawn =>
    simp only [hc, Option.some.injEq] at hstep
    exact hstep ▸ .spawn hc
  | lock =>
    simp only [hc, Option.ite_none_right_eq_some, Option.some.injEq] at hstep
    exact hstep.2 ▸ .lock hc hstep.1
  | test =>
    simp only [hc] at hstep
    split at hstep
    · rename_i hslot
      cases hstep
      exact .wait hc (Option.isNone_iff_eq_none.mp hslot)
    · rename_i hslot
      cases hstep
      exact .found hc fun hnone => hslot (Option.isNone_iff_eq_none.mpr hnone)
  | relock timedOut =>
    simp only [hc, Option.ite_none_right_eq_some, Option.some.injEq] at hstep
    exact hstep.2 ▸ .relock timedOut hc hstep.1
  | retest timedOut =>
    simp only [hc, Bool.and_eq_true, Option.isNone_iff_eq_none] at hstep
    split at hstep
    · rename_i hgives
      cases hstep
      exact .giveUp (hgives.1 ▸ hc) hgives.2
    · rename_i hkept
      cases hstep
      exact .goOn timedOut hc hkept
  | cancel =>
    simp only [hc, Option.some.injEq] at hstep
    exact hstep ▸ .cancel hc
  | unlock expired =>
    simp only [hc, Option.some.injEq] at hstep
    exact hstep ▸ .unlock expired hc
  | join expired =>
    simp only [hc] at hstep
    split at hstep
    · rename_i hdone
      cases hstep
      cases expired with
      | false => exact .joined hc hdone
      | true => exact .timedOut hc hdone
    · cases hstep
  | lockAgain =>
    simp only [hc, Option.ite_none_right_eq_some, Option.some.injEq] at hstep
    exact hstep.2 ▸ .lockAgain hc hstep.1
  | take =>
    simp only [hc, Option.some.injEq] at hstep
    exact hstep ▸ .take hc
  | waiting | returned result =>
    simp only [hc] at hstep
    cases hstep

/-- INTERNAL: a wake-up ends the wait, with the time over only if it is.
SOURCE: mmap/prefetch.rs:120 -/
theorem Prefetch.wakeStep_move {cause : Wake} (hstep : Prefetch.wakeStep cause s = some s') :
    Prefetch.Move page call s (.wake cause) s' := by
  unfold Prefetch.wakeStep at hstep
  split at hstep
  · rename_i hc
    split at hstep
    · cases hstep
      exact .wake _ false hc nofun
    · cases hstep
  · rename_i hc
    cases hstep
    exact .wake _ false hc nofun
  · rename_i slot hc htimer
    cases hstep
    exact .wake _ true hc fun _ => ⟨slot, htimer⟩
  · cases hstep

/-- INTERNAL: a step of the worker outside its loads and touches is one of its moves.
SOURCE: mmap/prefetch.rs:41-45, 65, 105-114 -/
theorem Prefetch.workerStep_move (hstep : Prefetch.workerStep call s = some s') :
    Prefetch.Move page call s .worker s' := by
  unfold Prefetch.workerStep at hstep
  cases hw : s.worker with
  | installHandler =>
    simp only [hw, Option.some.injEq] at hstep
    exact hstep ▸ .install hw
  | head pos =>
    simp only [hw] at hstep
    split at hstep
    · rename_i hlt
      cases hstep
      exact .enter pos hw hlt
    · rename_i hstop
      cases hstep
      exact .leave pos hw hstop
  | lock result =>
    simp only [hw, Option.ite_none_right_eq_some, Option.some.injEq] at hstep
    exact hstep.2 ▸ .acquire result hw hstep.1
  | store result =>
    simp only [hw, Option.some.injEq] at hstep
    exact hstep ▸ .store result hw
  | notifyOne =>
    simp only [hw, Option.some.injEq] at hstep
    exact hstep ▸ .notify hw
  | unlock =>
    simp only [hw, Option.some.injEq] at hstep
    exact hstep ▸ .release hw
  | unborn | load pos | touch pos | done =>
    simp only [hw] at hstep
    cases hstep

/-- INTERNAL: a look at the flag sees it only if it is set.
SOURCE: mmap/prefetch.rs:45-47 -/
theorem Prefetch.loadStep_move {seen : Bool} (hstep : Prefetch.loadStep seen s = some s') :
    Prefetch.Move page call s (.load seen) s' := by
  unfold Prefetch.loadStep at hstep
  split at hstep
  · rename_i pos hw
    cases seen with
    | true =>
      simp only [if_true, Option.ite_none_right_eq_some, Option.some.injEq] at hstep
      exact hstep.2 ▸ .stop pos hw hstep.1
    | false =>
      cases hstep
      exact .look pos hw
  · cases hstep

/-- INTERNAL: **every step is one of the moves.**
SOURCE: mmap/prefetch.rs:35-66, 90-150 -/
theorem Prefetch.step_move {act : PrefetchAct} (hstep : Prefetch.step page call act s = some s') :
    Prefetch.Move page call s act s' := by
  cases act with
  | caller => exact callerStep_move hstep
  | wake cause => exact wakeStep_move hstep
  | worker => exact workerStep_move hstep
  | load seen => exact loadStep_move hstep
  | touch fault =>
    simp only [Prefetch.step, Prefetch.touchStep] at hstep
    split at hstep
    · rename_i pos hw
      cases hstep
      exact .touch fault pos hw
    · cases hstep
  | expire =>
    simp only [Prefetch.step, Prefetch.expireStep] at hstep
    split at hstep
    · rename_i htimer
      cases hstep
      exact .expire htimer
    · cases hstep
  | dropMapping =>
    simp only [Prefetch.step, Prefetch.dropStep] at hstep
    split at hstep
    · rename_i result hc
      cases hstep
      exact .dropMapping result hc
    · cases hstep

end MmapShield.Analysis
