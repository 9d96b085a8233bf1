import MmapShield.Analysis.ProbeLoop
import MmapShield.Computation.Measure

/-!
# The timed prefetch comes to an end

The caller waits for the mutex, for a wake-up and for the end of the worker; the worker waits for
the mutex. `Disciplined` says who holds the mutex at which point of the code, and that a caller
that is asleep has a timer that runs and is told when there is a result. From it follows that in
every state some step can be taken until the call has returned. `remaining` is a number that
every step makes smaller, so that no schedule goes on for ever: neither a spurious wake-up nor a
round of the loop comes back to where it was.

`cancel_prompt` is about the flag: once it is set, a worker that sees it makes at most the touch
that it has already decided to make.
-/

set_option autoImplicit false

namespace MmapShield.Analysis.Progress

open MmapShield.Computation MmapShield.Model

variable {page : Usize} {call : PrefetchCall} {s s' : Prefetch}

/-! ## Who holds the mutex -/

/-- The caller holds the mutex at these points.
SOURCE: mmap/prefetch.rs:117-138 -/
def callerHolds : CallerPc → Bool
  | .test | .retest _ | .cancel | .unlock _ | .take => true
  | _ => false

/-- The worker holds the mutex at these points.
SOURCE: mmap/prefetch.rs:111-114 -/
def workerHolds : WorkerPc → Bool
  | .store _ | .notifyOne | .unlock => true
  | _ => false

/-- What holds in every state of every run. -/
structure Disciplined (s : Prefetch) : Prop where
  caller : callerHolds s.caller = true ↔ s.mutex = some .caller
  worker : workerHolds s.worker = true ↔ s.mutex = some .worker
  born : s.worker = .unborn ↔ s.caller = .spawn
  timed : s.caller = .waiting → s.timer ≠ .unset
  told : s.caller = .waiting → s.slot ≠ none → s.worker = .notifyOne ∨ s.notified = true

/-- INTERNAL: nobody holds the mutex when the call begins. -/
theorem disciplined_init : Disciplined .init where
  caller := by simp [Prefetch.init, callerHolds]
  worker := by simp [Prefetch.init, workerHolds]
  born := by simp [Prefetch.init]
  timed := by simp [Prefetch.init]
  told := by simp [Prefetch.init]

/-- The mutex after one of the two went on from a point at which it held it or not (`before`) to
one at which it holds it or not (`now`). -/
def handed (me : Holder) (before now : Bool) (mutex : Option Holder) : Option Holder :=
  if now then some me else if before then none else mutex

/-- INTERNAL: the one that goes on holds the mutex exactly where it should. -/
theorem handed_self {me : Holder} {before now : Bool} {mutex : Option Holder}
    (h : before = true ↔ mutex = some me) :
    now = true ↔ handed me before now mutex = some me := by
  unfold handed
  cases now with
  | true => simp
  | false =>
      cases before with
      | true => simp
      | false => simpa using h

/-- INTERNAL: the other one holds the mutex if it did before. -/
theorem handed_other {me other : Holder} {before now : Bool} {mutex : Option Holder}
    (hother : other ≠ me) (h : before = true ↔ mutex = some me)
    (hfree : now = true → before = true ∨ mutex = none) :
    mutex = some other ↔ handed me before now mutex = some other := by
  have hnot (hbefore : before = true) : mutex ≠ some other := by
    rw [h.mp hbefore]
    simpa using hother.symm
  unfold handed
  cases now with
  | true =>
      have hclear : mutex ≠ some other := by
        rcases hfree rfl with hbefore | hnone
        · exact hnot hbefore
        · simp [hnone]
      simpa [hother.symm] using hclear
  | false =>
      cases before with
      | true => simpa using hnot rfl
      | false => simp

/-- INTERNAL: the caller goes on, to a point other than the wait.
SOURCE: mmap/prefetch.rs:116-149 -/
theorem Disciplined.caller_goes (h : Disciplined s) (hstarted : s.caller ≠ .spawn)
    (hgoes : s'.caller ≠ .spawn ∧ s'.caller ≠ .waiting) (hworker : s'.worker = s.worker)
    (hmutex : s'.mutex = handed .caller (callerHolds s.caller) (callerHolds s'.caller) s.mutex)
    (hfree : callerHolds s'.caller = true → callerHolds s.caller = true ∨ s.mutex = none) :
    Disciplined s' where
  caller := by
    rw [hmutex]
    exact handed_self h.caller
  worker := by
    rw [hmutex, hworker, h.worker]
    exact handed_other nofun h.caller hfree
  born := by
    rw [hworker, h.born]
    exact iff_of_false hstarted hgoes.1
  timed := fun hwaiting => absurd hwaiting hgoes.2
  told := fun hwaiting => absurd hwaiting hgoes.2

/-- INTERNAL: the worker goes on, with what it has stored told already.
SOURCE: mmap/prefetch.rs:35-66, 105-114 -/
theorem Disciplined.worker_goes (h : Disciplined s) (hborn : s.worker ≠ .unborn)
    (hgoes : s'.worker ≠ .unborn) (hcaller : s'.caller = s.caller) (htimer : s'.timer = s.timer)
    (hmutex : s'.mutex = handed .worker (workerHolds s.worker) (workerHolds s'.worker) s.mutex)
    (hfree : workerHolds s'.worker = true → workerHolds s.worker = true ∨ s.mutex = none)
    (htold : s'.caller = .waiting → s'.slot ≠ none → s'.worker = .notifyOne ∨ s'.notified = true) :
    Disciplined s' where
  caller := by
    rw [hmutex, hcaller, h.caller]
    exact handed_other nofun h.worker hfree
  worker := by
    rw [hmutex]
    exact handed_self h.worker
  born := by
    rw [hcaller, ← h.born]
    exact iff_of_false hgoes hborn
  timed := by
    rw [hcaller, htimer]
    exact h.timed
  told := htold

/-- INTERNAL: a caller that is asleep knows of what is in the slot, when the worker is not about
to notify it. -/
theorem Disciplined.aware (h : Disciplined s) {w : WorkerPc} (hw : s.worker = w)
    (hne : w ≠ .notifyOne) (hwaiting : s.caller = .waiting) (hslot : s.slot ≠ none) :
    s.notified = true :=
  (h.told hwaiting hslot).resolve_left fun heq => hne (hw ▸ heq)

/-- INTERNAL: **every step keeps the discipline.** The wait gives up the mutex and starts the
timer in one step, with an empty slot; the worker notifies while it holds the mutex, so that a
caller that has found the slot empty and waits is told.
SOURCE: mmap/prefetch.rs:35-66, 90-150 -/
theorem Disciplined.step (act : PrefetchAct) (s s' : Prefetch) (h : Disciplined s)
    (hstep : Prefetch.step page call act s = some s') : Disciplined s' := by
  cases Prefetch.step_move hstep with
  | spawn hc =>
      have hcaller := h.caller
      have hworker := h.worker
      rw [hc] at hcaller
      rw [h.born.mpr hc] at hworker
      exact ⟨hcaller, hworker, by simp, by simp, by simp⟩
  | wait hc hslot =>
      have hmutex := h.caller.mp (by rw [hc]; rfl)
      have hworker := h.worker
      rw [hmutex] at hworker
      refine ⟨by simp [callerHolds], by simpa using hworker, ?_, by simp, ?_⟩
      · rw [h.born, hc]
        simp
      · exact fun _ hne => absurd hslot hne
  | lock hc hfree | relock _ hc hfree | lockAgain hc hfree =>
      exact h.caller_goes (by simp [hc]) (by simp) rfl rfl fun _ => Or.inr hfree
  | found hc _ | giveUp hc _ | goOn _ hc _ | cancel hc =>
      have hmutex := h.caller.mp (by rw [hc]; rfl)
      exact h.caller_goes (by simp [hc]) (by simp) rfl hmutex fun _ => Or.inl (by rw [hc]; rfl)
  | unlock _ hc | take hc =>
      exact h.caller_goes (by simp [hc]) (by simp) rfl (by rw [hc]; rfl) nofun
  | joined hc _ | timedOut hc _ | wake _ _ hc _ =>
      exact h.caller_goes (by simp [hc]) (by simp) rfl (by rw [hc]; rfl) nofun
  | install hw | enter _ hw _ | leave _ hw _ | stop _ hw _ | look _ hw =>
      exact h.worker_goes (by simp [hw]) (by simp) rfl rfl (by rw [hw]; rfl) nofun
        fun hwaiting hslot => Or.inr (h.aware hw (by simp) hwaiting hslot)
  | touch fault _ hw =>
      refine h.worker_goes (by simp [hw]) ?_ rfl rfl ?_ ?_
        fun hwaiting hslot => Or.inr (h.aware hw (by simp) hwaiting hslot)
      · cases fault <;> simp
      · rw [hw]
        cases fault <;> rfl
      · cases fault <;> nofun
  | acquire _ hw hfree =>
      exact h.worker_goes (by simp [hw]) (by simp) rfl rfl rfl (fun _ => Or.inr hfree)
        fun hwaiting hslot => Or.inr (h.aware hw (by simp) hwaiting hslot)
  | store _ hw =>
      have hmutex := h.worker.mp (by rw [hw]; rfl)
      exact h.worker_goes (by simp [hw]) (by simp) rfl rfl hmutex
        (fun _ => Or.inl (by rw [hw]; rfl)) fun _ _ => Or.inl rfl
  | notify hw =>
      have hmutex := h.worker.mp (by rw [hw]; rfl)
      refine h.worker_goes (by simp [hw]) (by simp) rfl rfl hmutex
        (fun _ => Or.inl (by rw [hw]; rfl)) ?_
      intro hwaiting _
      have hasleep : s.caller.isWaiting = true := by
        simp [show s.caller = .waiting from hwaiting, CallerPc.isWaiting]
      exact Or.inr (by simp [hasleep])
  | release hw =>
      exact h.worker_goes (by simp [hw]) (by simp) rfl rfl (by rw [hw]; rfl) nofun
        fun hwaiting hslot => Or.inr (h.aware hw (by simp) hwaiting hslot)
  | expire _ => exact ⟨h.caller, h.worker, h.born, by simp, h.told⟩
  | dropMapping _ _ => exact ⟨h.caller, h.worker, h.born, h.timed, h.told⟩

/-! ## Some step can be taken -/

/-- A step of the caller, of the worker or of the clock; a spurious wake-up is none of them. -/
def CanMove (page : Usize) (call : PrefetchCall) (s : Prefetch) : Prop :=
  ∃ act s', act ≠ .dropMapping ∧ act ≠ .wake .spurious ∧ Prefetch.step page call act s = some s'

/-- INTERNAL: a worker that has started and not ended can move, unless the caller holds the mutex.
SOURCE: mmap/prefetch.rs:35-66, 105-114 -/
theorem Disciplined.worker_moves (h : Disciplined s) (hborn : s.worker ≠ .unborn)
    (hdone : s.worker ≠ .done) (hfree : s.mutex ≠ some .caller) : CanMove page call s := by
  have hworker := h.worker
  cases hw : s.worker with
  | unborn => exact absurd hw hborn
  | done => exact absurd hw hdone
  | load pos =>
      exact ⟨.load false, _, by simp, by simp, by simp [Prefetch.step, Prefetch.loadStep, hw]; rfl⟩
  | touch pos =>
      exact ⟨.touch false, _, by simp, by simp,
        by simp [Prefetch.step, Prefetch.touchStep, hw]; rfl⟩
  | head pos =>
      refine ⟨.worker, ?_⟩
      simp only [Prefetch.step, Prefetch.workerStep, hw]
      split <;> exact ⟨_, by simp, by simp, rfl⟩
  | lock result =>
      have hnone : s.mutex = none := by
        rw [hw] at hworker
        cases hm : s.mutex with
        | none => rfl
        | some holder =>
            cases holder with
            | caller => exact absurd hm hfree
            | worker => simp [workerHolds, hm] at hworker
      exact ⟨.worker, _, by simp, by simp,
        by simp [Prefetch.step, Prefetch.workerStep, hw, hnone]; rfl⟩
  | installHandler | store result | notifyOne | unlock =>
      exact ⟨.worker, _, by simp, by simp, by simp [Prefetch.step, Prefetch.workerStep, hw]; rfl⟩

/-- INTERNAL: a caller that wants the mutex can have it, or the worker that holds it can move.
SOURCE: mmap/prefetch.rs:111-118 -/
theorem Disciplined.lock_moves (h : Disciplined s) (hcaller : callerHolds s.caller = false)
    (hstarted : s.caller ≠ .spawn) (htake : s.mutex = none → CanMove page call s) :
    CanMove page call s := by
  have hnot : s.mutex ≠ some .caller := by
    intro hm
    rw [h.caller.mpr hm] at hcaller
    cases hcaller
  cases hm : s.mutex with
  | none => exact htake hm
  | some holder =>
      cases holder with
      | caller => exact absurd hm hnot
      | worker =>
          have hholds := h.worker.mpr hm
          refine h.worker_moves ?_ ?_ hnot
          · intro hw
            exact hstarted (h.born.mp hw)
          · intro hw
            simp [hw, workerHolds] at hholds

/-- INTERNAL: **no deadlock.** Until the call has returned, something can move.
SOURCE: mmap/prefetch.rs:90-150 -/
theorem Disciplined.moves (h : Disciplined s) (hopen : isReturned s.caller = false) :
    CanMove page call s := by
  have hcaller := h.caller
  cases hc : s.caller with
  | returned result => simp [hc, isReturned] at hopen
  | lock | lockAgain | relock timedOut =>
      refine h.lock_moves (by simp [hc, callerHolds]) (by simp [hc]) ?_
      intro hfree
      exact ⟨.caller, _, by simp, by simp,
        by simp [Prefetch.step, Prefetch.callerStep, hc, hfree]; rfl⟩
  | waiting =>
      have htimed := h.timed hc
      cases ht : s.timer with
      | unset => exact absurd ht htimed
      | running =>
          exact ⟨.expire, _, by simp, by simp,
            by simp [Prefetch.step, Prefetch.expireStep, ht]; rfl⟩
      | expired slot =>
          exact ⟨.wake .timedOut, _, by simp, by simp,
            by simp [Prefetch.step, Prefetch.wakeStep, hc, ht]; rfl⟩
  | join expired =>
      by_cases hdone : s.worker = .done
      · exact ⟨.caller, _, by simp, by simp,
          by simp [Prefetch.step, Prefetch.callerStep, hc, hdone]; rfl⟩
      · refine h.worker_moves ?_ hdone ?_
        · intro hw
          simp [h.born.mp hw] at hc
        · intro hm
          simp [hc, callerHolds, hm] at hcaller
  | test | retest timedOut =>
      refine ⟨.caller, ?_⟩
      simp only [Prefetch.step, Prefetch.callerStep, hc]
      split <;> exact ⟨_, by simp, by simp, rfl⟩
  | spawn | cancel | unlock expired | take =>
      exact ⟨.caller, _, by simp, by simp, by simp [Prefetch.step, Prefetch.callerStep, hc]; rfl⟩

/-! ## No schedule goes on for ever -/

/-- The rounds that the loop of the worker has left at a position. -/
def left (page : Usize) (call : PrefetchCall) (pos : Usize) : ℕ :=
  (call.offset.toNat + call.len.toNat - pos.toNat) ⌈/⌉ page.toNat

/-- The steps that the worker has left, at most. -/
def workerLeft (page : Usize) (call : PrefetchCall) : WorkerPc → ℕ
  | .unborn => 3 * rounds page call.len + 7
  | .installHandler => 3 * rounds page call.len + 6
  | .head pos => 3 * left page call pos + 5
  | .load pos => 3 * left page call pos + 4
  | .touch pos => 3 * left page call pos + 3
  | .lock _ => 4
  | .store _ => 3
  | .notifyOne => 2
  | .unlock => 1
  | .done => 0

/-- The steps that the caller has left, at most. The wait counts for the end of the time too. -/
def callerLeft : CallerPc → ℕ
  | .spawn => 13
  | .lock => 12
  | .test => 11
  | .waiting => 8
  | .relock _ => 7
  | .retest _ => 6
  | .cancel => 5
  | .unlock _ => 4
  | .join _ => 3
  | .lockAgain => 2
  | .take => 1
  | .returned _ => 0

/-- The end of the time comes once. -/
def timerLeft : Timer → ℕ
  | .running => 1
  | _ => 0

/-- The number that every step makes smaller. -/
def remaining (page : Usize) (call : PrefetchCall) (s : Prefetch) : ℕ :=
  callerLeft s.caller + workerLeft page call s.worker + timerLeft s.timer

/-- INTERNAL: one stride is one round less.
SOURCE: mmap/prefetch.rs:44-63 -/
theorem left_stride (hpage : 0 < page.toNat)
    (hroom : call.offset.toNat + call.len.toNat + page.toNat ≤ 2 ^ 64) {pos : Usize}
    (hpos : pos < call.offset + call.len) :
    left page call pos = left page call (pos + page) + 1 := by
  rw [UInt64.lt_iff_toNat_lt, toNat_add_of_fits (by omega)] at hpos
  have hnext : (pos + page).toNat = pos.toNat + page.toNat := toNat_add_of_fits (by omega)
  unfold left
  rw [hnext, Nat.ceilDiv_eq_add_pred_div, Nat.ceilDiv_eq_add_pred_div]
  obtain ⟨d, hd⟩ : ∃ d, call.offset.toNat + call.len.toNat - pos.toNat = d + 1 :=
    ⟨call.offset.toNat + call.len.toNat - pos.toNat - 1, by omega⟩
  by_cases hbig : page.toNat ≤ d + 1
  · have hone : d + 1 + page.toNat - 1 = d + page.toNat := by omega
    have htwo : call.offset.toNat + call.len.toNat - (pos.toNat + page.toNat) + page.toNat - 1 =
        d := by omega
    rw [hd, hone, htwo, Nat.add_div_right d hpage]
  · have hone : d + 1 + page.toNat - 1 = d + page.toNat := by omega
    have hzero : call.offset.toNat + call.len.toNat - (pos.toNat + page.toNat) = 0 := by omega
    have hsmall : d < page.toNat := by omega
    rw [hd, hone, hzero, Nat.add_div_right d hpage, Nat.div_eq_of_lt hsmall,
      Nat.div_eq_of_lt (by omega)]

/-- INTERNAL: the loop starts with all its rounds. -/
theorem left_offset : left page call call.offset = rounds page call.len := by
  unfold left rounds
  rw [Nat.add_sub_cancel_left]

/-- The actions that the rule of termination counts: all but the drop of the mapping, which is not
a step of the call. -/
def counted (act : PrefetchAct) : Bool := act != .dropMapping

/-- INTERNAL: the time ends at most once more. -/
theorem timerLeft_le (timer : Timer) : timerLeft timer ≤ 1 := by
  cases timer <;> simp [timerLeft]

/-- INTERNAL: a step that only moves the caller. -/
theorem caller_moved (hcaller : callerLeft s'.caller < callerLeft s.caller)
    (hworker : s'.worker = s.worker) (htimer : s'.timer = s.timer) :
    remaining page call s' + 1 ≤ remaining page call s := by
  unfold remaining
  rw [hworker, htimer]
  omega

/-- INTERNAL: a step that only moves the worker. -/
theorem worker_moved (hworker : workerLeft page call s'.worker < workerLeft page call s.worker)
    (hcaller : s'.caller = s.caller) (htimer : s'.timer = s.timer) :
    remaining page call s' + 1 ≤ remaining page call s := by
  unfold remaining
  rw [hcaller, htimer]
  omega

/-- INTERNAL: **every step of the call makes the number smaller.** The start of the worker and
the start of the clock are paid for by the caller; a touch that does not fault is paid for by the
stride that follows it.
SOURCE: mmap/prefetch.rs:35-66, 90-150 -/
theorem remaining_step (hpage : 0 < page.toNat)
    (hroom : call.offset.toNat + call.len.toNat + page.toNat ≤ 2 ^ 64) (act : PrefetchAct)
    (s s' : Prefetch) (h : Protocol page call s ∧ Disciplined s)
    (hstep : Prefetch.step page call act s = some s') :
    remaining page call s' + (if counted act then 1 else 0) ≤ remaining page call s := by
  obtain ⟨hprotocol, hdisciplined⟩ := h
  cases Prefetch.step_move hstep with
  | spawn hc =>
      show remaining page call _ + 1 ≤ _
      simp only [remaining, callerLeft, workerLeft, hc, hdisciplined.born.mpr hc]
      omega
  | wait hc _ =>
      have htimer := timerLeft_le s.timer
      have hrunning : timerLeft .running = 1 := rfl
      show remaining page call _ + 1 ≤ _
      simp only [remaining, callerLeft, hc, hrunning]
      omega
  | lock hc _ | found hc _ | relock _ hc _ | giveUp hc _ | goOn _ hc _ | cancel hc | unlock _ hc
    | joined hc _ | timedOut hc _ | lockAgain hc _ | take hc | wake _ _ hc _ =>
      exact caller_moved (by simp [hc, callerLeft]) rfl rfl
  | install hw => exact worker_moved (by simp [hw, workerLeft, left_offset]) rfl rfl
  | leave pos hw _ =>
      refine worker_moved ?_ rfl rfl
      simp only [hw, workerLeft]
      omega
  | stop pos hw _ =>
      obtain ⟨k, rfl, -, hlt⟩ := hprotocol.worker_at hw
      have hround := left_stride hpage hroom hlt
      refine worker_moved ?_ rfl rfl
      simp only [hw, workerLeft]
      omega
  | enter _ hw _ | acquire _ hw _ | store _ hw | notify hw | release hw | look _ hw =>
      exact worker_moved (by simp [hw, workerLeft]) rfl rfl
  | touch fault pos hw =>
      obtain ⟨k, rfl, -, hlt⟩ := hprotocol.worker_at hw
      have hround := left_stride hpage hroom hlt
      refine worker_moved ?_ rfl rfl
      -- a fault ends the loop, another touch is one round less
      cases fault with
      | true =>
        simp only [hw, workerLeft, if_true]
        omega
      | false =>
        simp only [hw, workerLeft, Bool.false_eq_true, if_false]
        omega
  | expire htimer => simp [remaining, counted, timerLeft, htimer]
  | dropMapping _ _ => simp [remaining, counted]

/-- INTERNAL: both invariants hold in every state of every run. -/
theorem reachable (acts : List PrefetchAct)
    (h : run (Prefetch.step page call) acts .init = some s) :
    Protocol page call s ∧ Disciplined s := by
  refine ⟨?_, ?_⟩
  · exact reach_invariant (Protocol page call) Protocol.step acts (protocol_init page call) h
  · exact reach_invariant Disciplined Disciplined.step acts disciplined_init h

/-- RESULT: **the timed prefetch comes to an end.** For every range that leaves room for one page
behind it, in every interleaving of the caller, the worker, the clock and spurious wake-ups: no run
of the call is longer than three steps for each page and twenty, and until the call has returned
some step other than a spurious wake-up can be taken; so every schedule that goes on makes it
return. A caller that waits is woken by its worker as soon as the result has been announced.
SOURCE: mmap/prefetch.rs:35-66, 90-150 -/
theorem prefetch_terminates (page : Usize) (call : PrefetchCall) (hpage : 0 < page.toNat)
    (hroom : call.offset.toNat + call.len.toNat + page.toNat ≤ 2 ^ 64) (acts : List PrefetchAct)
    (s : Prefetch) (h : run (Prefetch.step page call) acts .init = some s) :
    acts.countP counted ≤ 3 * rounds page call.len + 20 ∧
    (isReturned s.caller = false → CanMove page call s) ∧
    (s.caller = .waiting → s.slot ≠ none → s.worker ≠ .notifyOne →
      ∃ s', Prefetch.step page call (.wake .notified) s = some s') := by
  obtain ⟨-, hdisciplined⟩ := reachable acts h
  refine ⟨?_, hdisciplined.moves, ?_⟩
  · have hkept (act : PrefetchAct) (s s' : Prefetch) (hs : Protocol page call s ∧ Disciplined s)
        (hstep : Prefetch.step page call act s = some s') :
        Protocol page call s' ∧ Disciplined s' :=
      ⟨hs.1.step act s s' hstep, hs.2.step act s s' hstep⟩
    have hbound := run_measure (fun s => Protocol page call s ∧ Disciplined s)
      (remaining page call) counted hkept (remaining_step hpage hroom) acts
      ⟨protocol_init page call, disciplined_init⟩ h
    have hstart : remaining page call .init = 3 * rounds page call.len + 20 := by
      simp only [remaining, Prefetch.init, callerLeft, workerLeft, timerLeft]
      omega
    omega
  · intro hwaiting hslot hannounced
    have hnotified : s.notified = true :=
      (hdisciplined.told hwaiting hslot).resolve_left hannounced
    exact ⟨_, by simp [Prefetch.step, Prefetch.wakeStep, hwaiting, hnotified]; rfl⟩

/-- The run `slowPage`, of a prefetch of two pages, is one of those that `prefetch_terminates` is
about. -/
theorem prefetch_terminates_slowPage :
    run (Prefetch.step 4096 ⟨0x10000, 0, 8192, 1000⟩) slowPage .init = some slowPageEnd ∧
      slowPage.countP counted ≤ 3 * rounds 4096 8192 + 20 := by
  have hrun : run (Prefetch.step 4096 ⟨0x10000, 0, 8192, 1000⟩) slowPage .init =
      some slowPageEnd := rfl
  exact ⟨hrun, (prefetch_terminates 4096 ⟨0x10000, 0, 8192, 1000⟩ (by decide) (by decide) slowPage
    slowPageEnd hrun).1⟩

/-! ## The flag -/

/-- The caller has set the flag: it is on its way to returning a timeout, or has returned it. -/
def Doomed (call : PrefetchCall) (s : Prefetch) : Prop :=
  s.caller = .unlock true ∨ s.caller = .join true ∨
    s.caller = .returned (.error (Prefetch.timeoutError call))

/-- INTERNAL: nothing but the caller sets the flag, or moves a caller that is awake.
SOURCE: mmap/prefetch.rs:105-149 -/
theorem caller_alone {act : PrefetchAct} (hstep : Prefetch.step page call act s = some s')
    (hact : act ≠ .caller) :
    s'.cancelled = s.cancelled ∧ (s.caller ≠ .waiting → s'.caller = s.caller) := by
  cases Prefetch.step_move hstep with
  | wake _ _ hc _ => exact ⟨rfl, fun hawake => absurd hc hawake⟩
  | install _ | enter _ _ _ | leave _ _ _ | acquire _ _ _ | store _ _ | notify _ | release _
    | stop _ _ _ | look _ _ | touch _ _ _ | expire _ | dropMapping _ _ =>
      exact ⟨rfl, fun _ => rfl⟩
  | _ => exact absurd rfl hact

/-- INTERNAL: a caller that has set the flag returns a timeout, whatever the worker does.
SOURCE: mmap/prefetch.rs:123-132 -/
theorem Doomed.step {act : PrefetchAct} (h : Doomed call s)
    (hstep : Prefetch.step page call act s = some s') :
    Doomed call s' ∧ s'.cancelled = s.cancelled := by
  by_cases hact : act = .caller
  · subst hact
    cases Prefetch.step_move hstep with
    | unlock expired hc =>
        have hexpired : expired = true := by simpa [Doomed, hc] using h
        subst hexpired
        exact ⟨Or.inr (Or.inl rfl), rfl⟩
    | timedOut _ _ => exact ⟨Or.inr (Or.inr rfl), rfl⟩
    | spawn hc | lock hc _ | wait hc _ | found hc _ | relock _ hc _ | giveUp hc _ | goOn _ hc _
      | cancel hc | joined hc _ | lockAgain hc _ | take hc => simp [Doomed, hc] at h
  · have hawake : s.caller ≠ .waiting := by
      rcases h with hc | hc | hc <;> simp [hc]
    obtain ⟨hcancelled, hcaller⟩ := caller_alone hstep hact
    refine ⟨?_, hcancelled⟩
    unfold Doomed at h ⊢
    rw [hcaller hawake]
    exact h

/-- INTERNAL: the flag is set by a caller that is going to return a timeout.
SOURCE: mmap/prefetch.rs:123-124 -/
theorem doomed_step (act : PrefetchAct) (s s' : Prefetch)
    (h : s.cancelled = true → Doomed call s)
    (hstep : Prefetch.step page call act s = some s') : s'.cancelled = true → Doomed call s' := by
  intro hset
  by_cases hwas : s.cancelled = true
  · exact ((h hwas).step hstep).1
  · cases Prefetch.step_move hstep with
    | cancel _ => exact Or.inl rfl
    | _ => exact absurd hset hwas

/-- The worker looks at a flag that is set and sees it. -/
def SeesFlag (act : PrefetchAct) (s : Prefetch) : Prop :=
  act = .load false → s.cancelled = false

/-- The touch that the worker has decided to make. -/
def decided : WorkerPc → ℕ
  | .touch _ => 1
  | _ => 0

/-- INTERNAL: once the flag is set and seen, the worker decides to make no further touch.
SOURCE: mmap/prefetch.rs:44-63 -/
theorem touches_step {act : PrefetchAct} (hset : s.cancelled = true) (hsees : SeesFlag act s)
    (hstep : Prefetch.step page call act s = some s') :
    s'.touches.length + decided s'.worker ≤ s.touches.length + decided s.worker := by
  cases Prefetch.step_move hstep with
  | look pos hw =>
      have hclear := hsees rfl
      rw [hset] at hclear
      cases hclear
  | touch fault pos hw => cases fault <;> simp [decided, hw]
  | _ => simp [decided]

/-- RESULT: **a cancelled worker stops at the next page.** From every reachable state in which the
flag is set, in every run whose looks at the flag see it: the worker makes at most one more touch,
the one that it had decided to make, and the call returns nothing but a timeout.
SOURCE: mmap/prefetch.rs:44-63, 123-132 -/
theorem cancel_prompt (page : Usize) (call : PrefetchCall) (acts : List PrefetchAct) (s : Prefetch)
    (h : run (Prefetch.step page call) acts .init = some s) (hset : s.cancelled = true)
    (more : List PrefetchAct) (s' : Prefetch)
    (hmore : run (Prefetch.step page call) more s = some s')
    (hsees : Along (Prefetch.step page call) SeesFlag more s) :
    s'.touches.length ≤ s.touches.length + decided s.worker ∧
    ∀ result, s'.caller = .returned result → result = .error (Prefetch.timeoutError call) := by
  have hdoomed : Doomed call s := by
    refine reach_invariant (fun u => u.cancelled = true → Doomed call u) doomed_step acts ?_ h hset
    simp [Prefetch.init]
  have hinv : (Doomed call s' ∧ s'.cancelled = true) ∧
      s'.touches.length + decided s'.worker ≤ s.touches.length + decided s.worker := by
    refine run_invariant (fun u => (Doomed call u ∧ u.cancelled = true) ∧
      u.touches.length + decided u.worker ≤ s.touches.length + decided s.worker) ?_ more
      ⟨⟨hdoomed, hset⟩, Nat.le_refl _⟩ hsees hmore
    rintro act u u' hact ⟨⟨hu, hcancelled⟩, hle⟩ hstep
    obtain ⟨hu', hsame⟩ := hu.step hstep
    exact ⟨⟨hu', hsame.trans hcancelled⟩, (touches_step hcancelled hact hstep).trans hle⟩
  refine ⟨?_, ?_⟩
  · have hle := hinv.2
    omega
  · intro result hreturned
    rcases hinv.1.1 with hc | hc | hc
    · rw [hc] at hreturned
      cases hreturned
    · rw [hc] at hreturned
      cases hreturned
    · rw [hc] at hreturned
      cases hreturned
      rfl

/-- The run `slowPage` from the moment on at which the flag is set. -/
theorem cancel_prompt_slowPage :
    ∃ s, run (Prefetch.step 4096 ⟨0x10000, 0, 8192, 1000⟩) (slowPage.take 11) .init = some s ∧
      s.touches = [] ∧ s.worker = .touch 0 ∧
      run (Prefetch.step 4096 ⟨0x10000, 0, 8192, 1000⟩) (slowPage.drop 11) s = some slowPageEnd ∧
      slowPageEnd.touches.length ≤ s.touches.length + 1 := by
  refine ⟨_, rfl, rfl, rfl, rfl, ?_⟩
  refine (cancel_prompt 4096 ⟨0x10000, 0, 8192, 1000⟩ (slowPage.take 11) _ rfl rfl
    (slowPage.drop 11) slowPageEnd rfl ?_).1
  apply along_of_forall
  intro act hact s hload
  subst hload
  simp [slowPage] at hact

end MmapShield.Analysis.Progress
