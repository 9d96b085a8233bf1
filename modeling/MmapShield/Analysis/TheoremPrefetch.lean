import MmapShield.Computation.Machine
import MmapShield.Computation.Words
import MmapShield.Analysis.PrefetchMoves

/-!
# The protocol of the timed prefetch

`Protocol` is the invariant of caller and worker: what each of them relies on at the point
of its code where it is (`CallerOk`, `WorkerOk`), and what the slot, the flag and the timer
say about the other one. The two facts that carry the argument are that the flag is set by
a caller that is going to return a timeout whatever happens, and that what is in the slot
is `Genuine`: the probe ended there, or it was cancelled.

`prefetch_sound` says what each result of the call stands for. `prefetch_join_blocks` says
that the wait for the worker comes before every return, so that a worker that stalls holds
the caller whether the time is over or not.
-/

set_option autoImplicit false

namespace MmapShield.Analysis

open MmapShield.Computation MmapShield.Model

variable {page : Usize} {call : PrefetchCall} {s s' : Prefetch}

/-! ## The loop of the worker -/

/-- The position of the loop after `k` rounds. -/
def position (page : Usize) (call : PrefetchCall) (k : ℕ) : Usize :=
  call.offset + UInt64.ofNat k * page

/-- The `k`-th touch, when it does not fault. -/
def goodTouch (page : Usize) (call : PrefetchCall) (k : ℕ) : Touch :=
  ⟨call.basePtr + position page call k, false, true⟩

/-- The loop has made `k` rounds, without a fault and inside the range. -/
structure Walked (page : Usize) (call : PrefetchCall) (k : ℕ) (touches : List Touch) : Prop where
  inside : ∀ i < k, position page call i < call.offset + call.len
  touches : touches = (List.range k).map (goodTouch page call)

/-- The loop ran to its end, every touch without a fault. -/
def Whole (page : Usize) (call : PrefetchCall) (touches : List Touch) : Prop :=
  ∃ k, Walked page call k touches ∧ ¬ position page call k < call.offset + call.len

/-- What a result of `probe_pages` stands for. -/
def Genuine (page : Usize) (call : PrefetchCall) (touches : List Touch) (cancelledExit : Bool) :
    Except AccessError Unit → Prop
  | .ok () => cancelledExit = true ∨ Whole page call touches
  | .error (.sigbus addr) => ⟨addr, true, true⟩ ∈ touches
  | .error _ => False

/-- INTERNAL: one round more is one page more. -/
theorem position_succ (page : Usize) (call : PrefetchCall) (k : ℕ) :
    position page call k + page = position page call (k + 1) :=
  add_mul_succ call.offset page k

/-- INTERNAL: one more round of the loop.
SOURCE: mmap/prefetch.rs:45-63 -/
theorem Walked.succ {k : ℕ} {touches : List Touch} (h : Walked page call k touches)
    (hpos : position page call k < call.offset + call.len) :
    Walked page call (k + 1) (touches ++ [goodTouch page call k]) := by
  refine ⟨?_, ?_⟩
  · intro i hi
    rcases Nat.lt_succ_iff_lt_or_eq.mp hi with hlt | heq
    · exact h.inside i hlt
    · rw [heq]
      exact hpos
  · rw [List.range_succ, List.map_append, ← h.touches]
    rfl

/-! ## The invariant -/

/-- The worker has not stored its result yet. -/
def beforeStore : WorkerPc → Bool
  | .notifyOne | .unlock | .done => false
  | _ => true

/-- The worker has started and not ended. -/
def isRunning : WorkerPc → Bool
  | .unborn | .done => false
  | _ => true

/-- The call has returned. -/
def isReturned : CallerPc → Bool
  | .returned _ => true
  | _ => false

/-- What the caller relies on. -/
def CallerOk (page : Usize) (call : PrefetchCall) (s : Prefetch) : CallerPc → Prop
  | .spawn => s.worker = .unborn ∧ s.cancelled = false
  | .lock | .test | .waiting | .unlock false | .join false => s.cancelled = false
  | .relock timedOut | .retest timedOut =>
    s.cancelled = false ∧ (timedOut = true → ∃ slot, s.timer = .expired slot)
  | .cancel => s.cancelled = false ∧ s.timer = .expired none
  | .unlock true | .join true => s.timer = .expired none
  | .lockAgain | .take => s.cancelled = false ∧ s.worker = .done
  | .returned result =>
    s.worker = .done ∧
      (result = .error (Prefetch.timeoutError call) ∧ s.timer = .expired none ∨
        s.cancelledExit = false ∧ Genuine page call s.touches false result)

/-- What the worker relies on. -/
def WorkerOk (page : Usize) (call : PrefetchCall) (s : Prefetch) : WorkerPc → Prop
  | .unborn | .installHandler => s.touches = []
  | .head pos => ∃ k, pos = position page call k ∧ Walked page call k s.touches
  | .load pos | .touch pos =>
    ∃ k, pos = position page call k ∧ Walked page call k s.touches ∧
      position page call k < call.offset + call.len
  | .lock result | .store result => Genuine page call s.touches s.cancelledExit result
  | .notifyOne | .unlock | .done => True

/-- The invariant of the protocol. -/
structure Protocol (page : Usize) (call : PrefetchCall) (s : Prefetch) : Prop where
  caller : CallerOk page call s s.caller
  worker : WorkerOk page call s s.worker
  empty : beforeStore s.worker = true → s.slot = none
  stored : beforeStore s.worker = false → isReturned s.caller = false →
    ∃ result, s.slot = some result ∧ Genuine page call s.touches s.cancelledExit result
  exit : s.cancelledExit = true → s.cancelled = true
  expiry : ∀ result, s.timer = .expired (some result) → isReturned s.caller = false →
    s.slot = some result
  mapped : isReturned s.caller = false → s.mapped = true
  touched : ∀ touch ∈ s.touches, touch.mapped = true

/-- INTERNAL: the protocol holds when the call begins. -/
theorem protocol_init (page : Usize) (call : PrefetchCall) : Protocol page call .init where
  caller := ⟨rfl, rfl⟩
  worker := rfl
  empty := fun _ => rfl
  stored := nofun
  exit := nofun
  expiry := nofun
  mapped := fun _ => rfl
  touched := nofun

/-- INTERNAL: the caller moves on without touching anything but the mutex. -/
theorem Protocol.goto (h : Protocol page call s) {c : CallerPc} (mutex : Option Holder)
    (hopen : isReturned s.caller = false) (hc : CallerOk page call s c) :
    Protocol page call { s with caller := c, mutex := mutex } where
  caller := by
    cases c with
    | unlock expired => cases expired <;> exact hc
    | join expired => cases expired <;> exact hc
    | _ => exact hc
  worker := h.worker
  empty := h.empty
  stored := fun hw _ => h.stored hw hopen
  exit := h.exit
  expiry := fun result htimer _ => h.expiry result htimer hopen
  mapped := fun _ => h.mapped hopen
  touched := h.touched

/-! ## The steps -/

/-- INTERNAL: the caller keeps its part of the invariant while the worker moves: what it
knows about a worker is that it has not started or that it has ended.
SOURCE: mmap/prefetch.rs:105-149 -/
theorem CallerOk.worker_moves {c : CallerPc} (h : CallerOk page call s c)
    (hrunning : isRunning s.worker = true) (hcancelled : s'.cancelled = s.cancelled)
    (htimer : s'.timer = s.timer) : CallerOk page call s' c := by
  have hborn : s.worker ≠ .unborn := by
    intro hw
    rw [hw] at hrunning
    cases hrunning
  have hdone : s.worker ≠ .done := by
    intro hw
    rw [hw] at hrunning
    cases hrunning
  cases c with
  | spawn => exact absurd h.1 hborn
  | lockAgain => exact absurd h.2 hdone
  | take => exact absurd h.2 hdone
  | returned result => exact absurd h.1 hdone
  | unlock expired =>
    cases expired
    · exact hcancelled.trans h
    · exact htimer.trans h
  | join expired =>
    cases expired
    · exact hcancelled.trans h
    · exact htimer.trans h
  | relock timedOut | retest timedOut =>
    refine ⟨hcancelled.trans h.1, ?_⟩
    intro ht
    rw [htimer]
    exact h.2 ht
  | cancel => exact ⟨hcancelled.trans h.1, htimer.trans h.2⟩
  | lock | test | waiting => exact hcancelled.trans h

/-- INTERNAL: a call whose worker still moves has not returned. -/
theorem Protocol.open (h : Protocol page call s) (hrunning : isRunning s.worker = true) :
    isReturned s.caller = false := by
  have hcaller := h.caller
  cases hc : s.caller with
  | returned result =>
    rw [hc] at hcaller
    rw [hcaller.1] at hrunning
    cases hrunning
  | _ => rfl

/-- INTERNAL: the worker moves between two points before the store.
SOURCE: mmap/prefetch.rs:35-66, 106-111 -/
theorem Protocol.probe (h : Protocol page call s) {w : WorkerPc} (mutex : Option Holder)
    (hrunning : isRunning s.worker = true) (hbefore : beforeStore s.worker = true)
    (hw : beforeStore w = true) (hok : WorkerOk page call s w) :
    Protocol page call { s with worker := w, mutex := mutex } := by
  refine ⟨h.caller.worker_moves hrunning rfl rfl, ?_, fun _ => h.empty hbefore, ?_, h.exit,
    h.expiry, h.mapped, h.touched⟩
  · cases w <;> exact hok
  · intro hstored
    rw [hw] at hstored
    cases hstored

/-- INTERNAL: a caller that is at a point before its return has not returned. -/
theorem open_at {c : CallerPc} (hc : s.caller = c) (hopen : isReturned c = false) :
    isReturned s.caller = false := by
  rw [hc]
  exact hopen

/-- INTERNAL: the caller relies on what is said at the point where it is. -/
theorem Protocol.caller_at (h : Protocol page call s) {c : CallerPc} (hc : s.caller = c) :
    CallerOk page call s c :=
  hc ▸ h.caller

/-- INTERNAL: the worker relies on what is said at the point where it is. -/
theorem Protocol.worker_at (h : Protocol page call s) {w : WorkerPc} (hw : s.worker = w) :
    WorkerOk page call s w :=
  hw ▸ h.worker

/-- INTERNAL: the worker starts with no touch made and no result stored.
SOURCE: mmap/prefetch.rs:105-114 -/
theorem Protocol.spawns (h : Protocol page call s) (hc : s.caller = .spawn) :
    Protocol page call { s with caller := .lock, worker := .installHandler } := by
  obtain ⟨hworker, hcancelled⟩ := h.caller_at hc
  have hopen := open_at hc rfl
  have hslot : s.slot = none := by
    apply h.empty
    rw [hworker]
    rfl
  exact ⟨hcancelled, h.worker_at hworker, fun _ => hslot, nofun, h.exit,
    fun result htimer _ => h.expiry result htimer hopen, fun _ => h.mapped hopen, h.touched⟩

/-- INTERNAL: a caller that finds the slot empty after the time is over: it was empty when the
time was over, because what is in the slot stays there.
SOURCE: mmap/prefetch.rs:123 -/
theorem Protocol.gives_up (h : Protocol page call s) (hc : s.caller = .retest true)
    (hslot : s.slot = none) : Protocol page call { s with caller := .cancel } := by
  have hopen := open_at hc rfl
  obtain ⟨hcancelled, htimed⟩ := h.caller_at hc
  obtain ⟨slot, htimer⟩ := htimed rfl
  have hnone : slot = none := by
    cases slot with
    | none => rfl
    | some result =>
      have hold := h.expiry result htimer hopen
      rw [hslot] at hold
      cases hold
  rw [hnone] at htimer
  exact h.goto _ hopen ⟨hcancelled, htimer⟩

/-- INTERNAL: what the caller takes out of the slot is what the worker has put there.
SOURCE: mmap/prefetch.rs:138-149 -/
theorem Protocol.takes (h : Protocol page call s) (hc : s.caller = .take) :
    ∃ result, s.slot = some result ∧ Prefetch.conclude call s.slot = result ∧
      Genuine page call s.touches s.cancelledExit result := by
  obtain ⟨-, hdone⟩ := h.caller_at hc
  obtain ⟨result, hslot, hgenuine⟩ := h.stored (by rw [hdone]; rfl) (open_at hc rfl)
  refine ⟨result, hslot, ?_, hgenuine⟩
  rw [hslot]
  cases result <;> rfl

/-- INTERNAL: **the caller returns what it has taken out of the slot.** The flag is not set, so
that the probe was not cancelled.
SOURCE: mmap/prefetch.rs:138-149 -/
theorem Protocol.concludes (h : Protocol page call s) (hc : s.caller = .take) :
    Protocol page call
      { s with
        caller := .returned (Prefetch.conclude call s.slot), slot := none, mutex := none } := by
  obtain ⟨hcancelled, hdone⟩ := h.caller_at hc
  obtain ⟨result, -, hconclude, hgenuine⟩ := h.takes hc
  have hexit : s.cancelledExit = false := by
    cases he : s.cancelledExit with
    | false => rfl
    | true =>
      have hset := h.exit he
      rw [hcancelled] at hset
      cases hset
  rw [hexit] at hgenuine
  rw [hconclude]
  exact ⟨⟨hdone, Or.inr ⟨hexit, hgenuine⟩⟩, h.worker, fun _ => rfl, nofun, h.exit, nofun, nofun,
    h.touched⟩

/-- INTERNAL: the loop starts with its first position.
SOURCE: mmap/prefetch.rs:41-44 -/
theorem walked_start {touches : List Touch} (h : touches = []) :
    ∃ k, call.offset = position page call k ∧ Walked page call k touches := by
  refine ⟨0, ?_, ?_, h⟩
  · unfold position
    rw [show UInt64.ofNat 0 = 0 from rfl, UInt64.zero_mul, UInt64.add_zero]
  · intro i hi
    omega

/-- INTERNAL: **the worker stores its result** in a slot that was empty.
SOURCE: mmap/prefetch.rs:112 -/
theorem Protocol.stores (h : Protocol page call s) {result : Except AccessError Unit}
    (hw : s.worker = .store result) :
    Protocol page call { s with worker := .notifyOne, slot := some result } := by
  have hrunning : isRunning s.worker = true := by rw [hw]; rfl
  have hslot : s.slot = none := h.empty (by rw [hw]; rfl)
  refine ⟨h.caller.worker_moves hrunning rfl rfl, trivial, nofun,
    fun _ _ => ⟨result, rfl, h.worker_at hw⟩, h.exit, ?_, h.mapped, h.touched⟩
  intro old htimer hopen
  have hold := h.expiry old htimer hopen
  rw [hslot] at hold
  cases hold

/-- INTERNAL: a touch keeps the protocol; it comes before the end of the worker, so the
mapping is there.
SOURCE: mmap/prefetch.rs:50-62 -/
theorem Protocol.touches (h : Protocol page call s) {fault : Bool} {pos : Usize}
    (hw : s.worker = .touch pos) :
    Protocol page call
      { s with
        worker := if fault then .lock (.error (.sigbus (call.basePtr + pos)))
          else .head (pos + page)
        touches := s.touches ++ [⟨call.basePtr + pos, fault, s.mapped⟩] } := by
  obtain ⟨k, hpos, hwalked, hlt⟩ := h.worker_at hw
  subst hpos
  have hrunning : isRunning s.worker = true := by rw [hw]; rfl
  have hslot : s.slot = none := h.empty (by rw [hw]; rfl)
  have hmapped : s.mapped = true := h.mapped (h.open hrunning)
  have htouched (touch : Touch) (hmem : touch ∈
      s.touches ++ [⟨call.basePtr + position page call k, fault, s.mapped⟩]) :
      touch.mapped = true := by
    rcases List.mem_append.mp hmem with hold | hnew
    · exact h.touched touch hold
    · rw [List.mem_singleton.mp hnew]
      exact hmapped
  refine ⟨h.caller.worker_moves hrunning rfl rfl, ?_, fun _ => hslot, ?_, h.exit, h.expiry,
    h.mapped, htouched⟩
  · rw [hmapped]
    cases fault with
    | false =>
      refine ⟨k + 1, position_succ page call k, ?_⟩
      exact hwalked.succ hlt
    | true =>
      apply List.mem_append_right
      exact List.mem_singleton.mpr rfl
  · cases fault <;> nofun

/-- INTERNAL: the caller keeps its part of the invariant when the time is over: no point of its
code relies on a timer that still runs.
SOURCE: mmap/prefetch.rs:120 -/
theorem CallerOk.expires {c : CallerPc} (h : CallerOk page call s c)
    (htimer : s.timer = .running) :
    CallerOk page call { s with timer := .expired s.slot } c := by
  have hnot (slot : Option (Except AccessError Unit)) : s.timer ≠ .expired slot := by
    rw [htimer]
    nofun
  cases c with
  | relock timedOut | retest timedOut => exact ⟨h.1, fun _ => ⟨s.slot, rfl⟩⟩
  | cancel => exact absurd h.2 (hnot none)
  | unlock expired | join expired =>
    cases expired
    · exact h
    · exact absurd h (hnot none)
  | returned result =>
    obtain ⟨hdone, ⟨-, hold⟩ | hgenuine⟩ := h
    · exact absurd hold (hnot none)
    · exact ⟨hdone, Or.inr hgenuine⟩
  | _ => exact h

/-- INTERNAL: **every step keeps the protocol.** A wake-up tells of a time that is over only when
it is, a cancelled probe ends with `Ok(())`, and the mapping is dropped after the call only.
SOURCE: mmap/prefetch.rs:35-66, 90-150, mmap/mod.rs:766-787 -/
theorem Protocol.step (act : PrefetchAct) (s s' : Prefetch) (h : Protocol page call s)
    (hstep : Prefetch.step page call act s = some s') : Protocol page call s' := by
  cases Prefetch.step_move hstep with
  | spawn hc => exact h.spawns hc
  | lock hc | found hc | lockAgain hc =>
    have hok := h.caller_at hc
    exact h.goto _ (open_at hc rfl) hok
  | unlock expired hc =>
    have hok := h.caller_at hc
    apply h.goto _ (open_at hc rfl)
    cases expired <;> exact hok
  | wait hc =>
    have hopen := open_at hc rfl
    exact ⟨h.caller_at hc, h.worker, h.empty, fun hw _ => h.stored hw hopen, h.exit, nofun,
      fun _ => h.mapped hopen, h.touched⟩
  | relock timedOut hc =>
    have hok := h.caller_at hc
    exact h.goto _ (open_at hc rfl) hok
  | giveUp hc hslot => exact h.gives_up hc hslot
  | goOn timedOut hc => exact h.goto _ (open_at hc rfl) (h.caller_at hc).1
  | cancel hc =>
    have hopen := open_at hc rfl
    exact ⟨(h.caller_at hc).2, h.worker, h.empty, fun hw _ => h.stored hw hopen, fun _ => rfl,
      fun result htimer _ => h.expiry result htimer hopen, fun _ => h.mapped hopen, h.touched⟩
  | joined hc hdone => exact h.goto _ (open_at hc rfl) ⟨h.caller_at hc, hdone⟩
  | timedOut hc hdone =>
    exact h.goto _ (open_at hc rfl) ⟨hdone, Or.inl ⟨rfl, h.caller_at hc⟩⟩
  | take hc => exact h.concludes hc
  | wake cause timedOut hc htimer =>
    exact h.goto _ (open_at hc rfl) ⟨h.caller_at hc, htimer⟩
  | install hw =>
    exact h.probe _ (by rw [hw]; rfl) (by rw [hw]; rfl) rfl (walked_start (h.worker_at hw))
  | enter pos hw hlt =>
    obtain ⟨k, rfl, hwalked⟩ := h.worker_at hw
    exact h.probe _ (by rw [hw]; rfl) (by rw [hw]; rfl) rfl ⟨k, rfl, hwalked, hlt⟩
  | leave pos hw hstop =>
    obtain ⟨k, rfl, hwalked⟩ := h.worker_at hw
    exact h.probe _ (by rw [hw]; rfl) (by rw [hw]; rfl) rfl (Or.inr ⟨k, hwalked, hstop⟩)
  | acquire result hw =>
    have hok := h.worker_at hw
    exact h.probe _ (by rw [hw]; rfl) (by rw [hw]; rfl) rfl hok
  | store result hw => exact h.stores hw
  | notify hw | release hw =>
    have hrunning : isRunning s.worker = true := by rw [hw]; rfl
    exact ⟨h.caller.worker_moves hrunning rfl rfl, trivial, nofun,
      fun _ => h.stored (by rw [hw]; rfl), h.exit, h.expiry, h.mapped, h.touched⟩
  | stop pos hw hset =>
    have hrunning : isRunning s.worker = true := by rw [hw]; rfl
    exact ⟨h.caller.worker_moves hrunning rfl rfl, Or.inl rfl,
      fun _ => h.empty (by rw [hw]; rfl), nofun, fun _ => hset, h.expiry, h.mapped, h.touched⟩
  | look pos hw =>
    have hok := h.worker_at hw
    exact h.probe _ (by rw [hw]; rfl) (by rw [hw]; rfl) rfl hok
  | touch fault pos hw => exact h.touches hw
  | expire htimer =>
    refine ⟨h.caller.expires htimer, h.worker, h.empty, h.stored, h.exit, ?_, h.mapped,
      h.touched⟩
    intro result hnew _
    simpa using hnew
  | dropMapping result hc =>
    have hreturned : isReturned s.caller = true := by rw [hc]; rfl
    refine ⟨?_, h.worker, h.empty, h.stored, h.exit, h.expiry, ?_, h.touched⟩
    · dsimp only
      rw [hc]
      exact h.caller_at hc
    · intro hopen
      cases hreturned.symm.trans hopen

/-! ## What a result stands for -/

/-- INTERNAL: after the return the worker is gone, and nothing touches the mapping.
SOURCE: mmap/prefetch.rs:126, 136 -/
theorem returned_quiet {act : PrefetchAct} (hdone : s.worker = .done)
    (hreturned : isReturned s.caller = true) (hstep : Prefetch.step page call act s = some s') :
    s'.worker = .done ∧ isReturned s'.caller = true ∧ s'.touches = s.touches := by
  cases Prefetch.step_move hstep with
  | expire _ => exact ⟨hdone, hreturned, rfl⟩
  | dropMapping _ _ => exact ⟨hdone, hreturned, rfl⟩
  | _ => simp_all [isReturned]

/-- RESULT: **what the results of `prefetch_with_deadline` stand for.** In every interleaving
of caller, worker, wake-ups and the end of the time: `Ok(())` says that the loop of the
worker ran to its end and no touch faulted, and it is never that of a cancelled probe; a
`Sigbus` says that the touch at its address faulted; a `Timeout` says that the slot was empty
when the time was over. The worker has ended before the call returns, so that whatever happens
afterwards, a drop of the mapping included, no touch comes after it.
SOURCE: mmap/prefetch.rs:35-66, 90-150 -/
theorem prefetch_sound (page : Usize) (call : PrefetchCall) (acts : List PrefetchAct)
    (s : Prefetch) (result : Except AccessError Unit)
    (h : run (Prefetch.step page call) acts .init = some s)
    (hreturned : s.caller = .returned result) :
    (result = .ok () → Whole page call s.touches ∧ s.cancelledExit = false) ∧
    (∀ addr, result = .error (.sigbus addr) → ⟨addr, true, true⟩ ∈ s.touches) ∧
    (∀ offset len deadline, result = .error (.timeout offset len deadline) →
      s.timer = .expired none) ∧
    s.worker = .done ∧
    (∀ more s', run (Prefetch.step page call) more s = some s' → s'.touches = s.touches) ∧
    ∀ touch ∈ s.touches, touch.mapped = true := by
  have hprotocol : Protocol page call s :=
    reach_invariant (Protocol page call) Protocol.step acts (protocol_init page call) h
  have hcaller := hprotocol.caller
  rw [hreturned] at hcaller
  obtain ⟨hdone, hresult⟩ := hcaller
  refine ⟨?_, ?_, ?_, hdone, ?_, hprotocol.touched⟩
  · intro hok
    rcases hresult with ⟨htimeout, -⟩ | ⟨hexit, hgenuine⟩
    · rw [hok] at htimeout
      cases htimeout
    · rw [hok] at hgenuine
      rcases hgenuine with hcancelled | hwhole
      · cases hcancelled
      · exact ⟨hwhole, hexit⟩
  · intro addr hsigbus
    rcases hresult with ⟨htimeout, -⟩ | ⟨-, hgenuine⟩
    · rw [hsigbus] at htimeout
      cases htimeout
    · rw [hsigbus] at hgenuine
      exact hgenuine
  · intro offset len deadline htimeout
    rcases hresult with ⟨-, htimer⟩ | ⟨-, hgenuine⟩
    · exact htimer
    · rw [htimeout] at hgenuine
      exact absurd hgenuine not_false
  · intro more s' hmore
    have hquiet : s'.worker = .done ∧ isReturned s'.caller = true ∧ s'.touches = s.touches := by
      refine reach_invariant
        (fun u => u.worker = .done ∧ isReturned u.caller = true ∧ u.touches = s.touches)
        ?_ more ⟨hdone, by rw [hreturned]; rfl, rfl⟩ hmore
      intro act u u' hu hstep
      obtain ⟨hd, hr, ht⟩ := returned_quiet hu.1 hu.2.1 hstep
      exact ⟨hd, hr, ht.trans hu.2.2⟩
    exact hquiet.2.2

/-- The first page is slow: the time is over before it is there, and the worker sees the
flag before the second one. -/
def slowPage : List PrefetchAct :=
  [.caller, .worker, .worker, .load false, .caller, .caller, .expire, .wake .timedOut, .caller,
    .caller, .caller, .caller, .touch false, .worker, .load true, .worker, .worker, .worker,
    .worker, .caller]

/-- Where the run `slowPage` ends. -/
def slowPageEnd : Prefetch where
  caller := .returned (.error (.timeout 0 8192 1000))
  worker := .done
  mutex := none
  slot := some (.ok ())
  cancelled := true
  notified := false
  timer := .expired none
  mapped := true
  touches := [⟨0x10000, false, true⟩]
  cancelledExit := true

/-- The run `slowPage` is one of those that `prefetch_sound` is about: its probe is
cancelled and ends with `Ok(())`, and the call returns a timeout. -/
theorem prefetch_sound_slowPage :
    run (Prefetch.step 4096 ⟨0x10000, 0, 8192, 1000⟩) slowPage .init = some slowPageEnd ∧
      slowPageEnd.timer = .expired none ∧ slowPageEnd.worker = .done := by
  have hrun : run (Prefetch.step 4096 ⟨0x10000, 0, 8192, 1000⟩) slowPage .init =
      some slowPageEnd := by
    rfl
  obtain ⟨-, -, htimeout, hdone, -⟩ := prefetch_sound 4096 ⟨0x10000, 0, 8192, 1000⟩ slowPage
    slowPageEnd (.error (.timeout 0 8192 1000)) hrun rfl
  exact ⟨hrun, htimeout 0 8192 1000 rfl, hdone⟩

/-! ## The wait for the worker -/

/-- Steps of the caller alone lead to the return of a timeout. -/
def TimesOutAlone (page : Usize) (call : PrefetchCall) (s : Prefetch) : Prop :=
  ∃ acts s', (∀ act ∈ acts, act.ofCaller = true) ∧
    run (Prefetch.step page call) acts s = some s' ∧
    s'.caller = .returned (.error (Prefetch.timeoutError call))

/-- The time is over, the worker has stored no result and the call has not returned. -/
def Overdue (s : Prefetch) : Prop :=
  (∃ slot, s.timer = .expired slot) ∧ s.slot = none ∧ isReturned s.caller = false

/-- The caller has not come past `join`. -/
def beforeJoin : CallerPc → Bool
  | .lockAgain | .take | .returned _ => false
  | _ => true

/-- INTERNAL: the caller alone does not come past `join` while the worker has not ended.
SOURCE: mmap/prefetch.rs:105-136 -/
theorem caller_blocked {act : PrefetchAct} (hact : act.ofCaller = true)
    (hworker : s.worker ≠ .done) (hcaller : beforeJoin s.caller = true)
    (hstep : Prefetch.step page call act s = some s') :
    s'.worker ≠ .done ∧ beforeJoin s'.caller = true := by
  cases Prefetch.step_move hstep with
  | spawn _ => exact ⟨nofun, rfl⟩
  | joined _ hdone | timedOut _ hdone => exact absurd hdone hworker
  | lockAgain hc | take hc =>
    rw [hc] at hcaller
    cases hcaller
  | lock _ _ | wait _ _ | found _ _ | relock _ _ _ | giveUp _ _ | goOn _ _ _ | cancel _
    | unlock _ _ | wake _ _ _ _ => exact ⟨hworker, rfl⟩
  | _ => cases hact

/-- INTERNAL: in a state that is overdue the worker has not ended and the caller has not
joined it. -/
theorem Protocol.overdue (h : Protocol page call s) (hover : Overdue s) :
    s.worker ≠ .done ∧ beforeJoin s.caller = true := by
  obtain ⟨-, hslot, hopen⟩ := hover
  have hworker : s.worker ≠ .done := by
    intro hdone
    obtain ⟨result, hsome, -⟩ := h.stored (by rw [hdone]; rfl) hopen
    rw [hslot] at hsome
    cases hsome
  have hcaller := h.caller
  refine ⟨hworker, ?_⟩
  cases hc : s.caller with
  | lockAgain | take =>
    rw [hc] at hcaller
    exact absurd hcaller.2 hworker
  | returned result =>
    rw [hc] at hopen
    cases hopen
  | _ => rfl

/-- INTERNAL: no steps of the caller alone get it out of an overdue state.
SOURCE: mmap/prefetch.rs:123-136 -/
theorem Protocol.blocked (h : Protocol page call s) (hover : Overdue s) :
    ¬ TimesOutAlone page call s := by
  rintro ⟨acts, s', hacts, hrun, hreturned⟩
  have hinv : s'.worker ≠ .done ∧ beforeJoin s'.caller = true := by
    refine run_invariant (fun u => u.worker ≠ .done ∧ beforeJoin u.caller = true) ?_ acts
      (h.overdue hover) (along_of_forall (C := fun act _ => act.ofCaller = true)
        fun act hact _ => hacts act hact) hrun
    intro act u u' hact hu hstep
    exact caller_blocked hact hu.1 hu.2 hstep
  rw [hreturned] at hinv
  cases hinv.2

/-- The worker comes to its first touch and the caller waits until the time is over. -/
def stalledTouch : List PrefetchAct :=
  [.caller, .worker, .worker, .load false, .caller, .caller, .expire]

/-- RESULT: **a stalled worker holds the caller, always.** In every reachable state in which
the time is over, no result is stored and the call has not returned, no steps of the caller
alone lead to the return of a timeout: `join` comes before it. Such a state can be reached in
every call, and where there is a page to touch, with the worker in its first touch.
SOURCE: mmap/prefetch.rs:123-136 -/
theorem prefetch_join_blocks (page : Usize) (call : PrefetchCall) :
    (∀ acts s, run (Prefetch.step page call) acts .init = some s → Overdue s →
      ¬ TimesOutAlone page call s) ∧
    ∃ acts s, run (Prefetch.step page call) acts .init = some s ∧ Overdue s ∧
      (call.offset < call.offset + call.len → s.worker = .touch call.offset) := by
  refine ⟨?_, ?_⟩
  · intro acts s h hover
    have hprotocol : Protocol page call s :=
      reach_invariant (Protocol page call) Protocol.step acts (protocol_init page call) h
    exact hprotocol.blocked hover
  · by_cases hlt : call.offset < call.offset + call.len
    · refine ⟨stalledTouch, ?_⟩
      simp [stalledTouch, run, Prefetch.step, Prefetch.callerStep, Prefetch.workerStep,
        Prefetch.loadStep, Prefetch.expireStep, Prefetch.init, Overdue, isReturned, hlt]
    · refine ⟨[.caller, .caller, .caller, .expire], ?_⟩
      simp [run, Prefetch.step, Prefetch.callerStep, Prefetch.expireStep, Prefetch.init, Overdue,
        isReturned, hlt]

/-- The time of a prefetch of one page is over while the worker is in its touch, and the
caller alone can do nothing about it. -/
theorem stalledTouch_blocks :
    ∃ s, run (Prefetch.step 4096 ⟨0x10000, 0, 4096, 1000⟩) stalledTouch .init = some s ∧
      s.worker = .touch 0 ∧ Overdue s ∧
      ¬ TimesOutAlone 4096 ⟨0x10000, 0, 4096, 1000⟩ s := by
  have hover : Overdue
      { Prefetch.init with
        caller := .waiting, worker := .touch 0, timer := .expired none } :=
    ⟨⟨none, rfl⟩, rfl, rfl⟩
  refine ⟨_, rfl, rfl, hover, ?_⟩
  have hprotocol : Protocol 4096 ⟨0x10000, 0, 4096, 1000⟩ _ :=
    reach_invariant (Protocol _ _) Protocol.step stalledTouch (protocol_init _ _) rfl
  exact hprotocol.blocked hover

end MmapShield.Analysis
