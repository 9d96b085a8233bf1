import MmapShield.Analysis.ProbeLoop

/-!
# The faults of a timed prefetch

A fault of the worker goes into the slot, and the caller records what it takes out of it. A
caller that gives up, because its re-check after the time is over finds the slot empty, returns
a timeout without another look at the slot, so that a fault of that call is not recorded.

`Carried` says where the fault of the worker is at each point of a run, and `gaveUp_iff` that
the caller has given up exactly when one of its steps did.
-/

set_option autoImplicit false

namespace MmapShield.Analysis

open MmapShield.Computation MmapShield.Model

variable {page : Usize} {call : PrefetchCall} {s s' : Prefetch}

/-- The addresses of the touches that raised SIGBUS. -/
def faultsOf (touches : List Touch) : List Usize :=
  (touches.filter fun touch => touch.fault).map Touch.addr

/-- The fault that a result of `probe_pages` reports. -/
def reportOf : Except AccessError Unit → List Usize
  | .error (.sigbus addr) => [addr]
  | _ => []

/-- The caller has given up, or has returned the timeout of a call that did. -/
def gaveUp : CallerPc → Bool
  | .cancel | .unlock true | .join true | .returned (.error (.timeout _ _ _)) => true
  | _ => false

/-- The step is not the one in which the caller gives up: its look at an empty slot after the
time is over.
SOURCE: mmap/prefetch.rs:123-124 -/
def KeepsWaiting (act : PrefetchAct) (s : Prefetch) : Prop :=
  ¬ (act = .caller ∧ s.caller = .retest true ∧ s.slot = none)

/-- The step is not a touch that raises SIGBUS. -/
def Quiet (act : PrefetchAct) (_ : Prefetch) : Prop := act ≠ .touch true

/-! ## Giving up -/

/-- INTERNAL: a result of the probe is not a timeout. -/
theorem gaveUp_genuine {touches : List Touch} {cancelledExit : Bool}
    {result : Except AccessError Unit} (h : Genuine page call touches cancelledExit result) :
    gaveUp (.returned result) = false := by
  cases result with
  | ok value => rfl
  | error e =>
    cases e with
    | sigbus addr => rfl
    | _ => exact h.elim

/-- INTERNAL: **the caller gives up in one step only.**
SOURCE: mmap/prefetch.rs:105-149 -/
theorem step_gaveUp {act : PrefetchAct} (h : Protocol page call s)
    (hstep : Prefetch.step page call act s = some s') :
    gaveUp s'.caller = true ↔ gaveUp s.caller = true ∨ ¬ KeepsWaiting act s := by
  unfold KeepsWaiting
  cases Prefetch.step_move hstep with
  | giveUp hc hslot => simp [hc, hslot, gaveUp]
  | goOn timedOut hc hkept => simpa [hc, gaveUp] using hkept
  | unlock expired hc => cases expired <;> simp [hc, gaveUp]
  | take hc =>
    obtain ⟨result, -, hconclude, hgenuine⟩ := h.takes hc
    have hnot : gaveUp (.returned (Prefetch.conclude call s.slot)) = false := by
      rw [hconclude]
      exact gaveUp_genuine hgenuine
    simp only [hnot]
    simp [hc, gaveUp]
  | spawn hc | lock hc _ | wait hc _ | found hc _ | relock _ hc _ | cancel hc | joined hc _
    | timedOut hc _ | lockAgain hc _ | wake _ _ hc _ => simp [hc, gaveUp, Prefetch.timeoutError]
  | _ => simp

/-- INTERNAL: **a call that has returned gave up exactly when one of its steps did.**
SOURCE: mmap/prefetch.rs:105-149 -/
theorem gaveUp_iff {acts : List PrefetchAct}
    (h : run (Prefetch.step page call) acts .init = some s) :
    gaveUp s.caller = true ↔ ¬ Along (Prefetch.step page call) KeepsWaiting acts .init := by
  have hmark := run_mark (C := KeepsWaiting) (Protocol page call) (fun s => gaveUp s.caller = true)
    Protocol.step ?_ acts (protocol_init page call) h
  · rw [hmark]
    simp [Prefetch.init, gaveUp]
  · intro act u u' hprotocol hstep
    exact step_gaveUp hprotocol hstep

/-! ## Where the fault is -/

/-- INTERNAL: one touch more is one fault more, if it faults. -/
theorem faultsOf_append (touches : List Touch) (touch : Touch) :
    faultsOf (touches ++ [touch]) =
      faultsOf touches ++ if touch.fault then [touch.addr] else [] := by
  unfold faultsOf
  rw [List.filter_append, List.map_append]
  cases hfault : touch.fault <;> simp [hfault]

/-- What the worker has to report, at each point of its code. -/
def Reports (touches : List Touch) : WorkerPc → Prop
  | .lock result | .store result => faultsOf touches = reportOf result
  | .notifyOne | .unlock | .done => True
  | _ => faultsOf touches = []

/-- The fault of the worker is on its way to the caller. -/
structure Carried (s : Prefetch) : Prop where
  worker : Reports s.touches s.worker
  slot : ∀ result, s.slot = some result → faultsOf s.touches = reportOf result
  returned : ∀ result, s.caller = .returned result → gaveUp (.returned result) = false →
    faultsOf s.touches = reportOf result
  single : (faultsOf s.touches).length ≤ 1

/-- INTERNAL: a call that begins has no fault. -/
theorem carried_init : Carried .init where
  worker := rfl
  slot := by simp [Prefetch.init]
  returned := by simp [Prefetch.init]
  single := by simp [Prefetch.init, faultsOf]

/-- INTERNAL: what the worker reports at the point where it is. -/
theorem Carried.at (h : Carried s) {w : WorkerPc} (hw : s.worker = w) : Reports s.touches w :=
  hw ▸ h.worker

/-- INTERNAL: a caller that goes on, and does not return what it did not get.
SOURCE: mmap/prefetch.rs:105-149 -/
theorem Carried.goto (h : Carried s)
    (hreturned : ∀ result, s'.caller = .returned result → gaveUp (.returned result) = true)
    (hworker : s'.worker = s.worker) (hslot : s'.slot = s.slot)
    (htouches : s'.touches = s.touches) : Carried s' := by
  refine ⟨?_, ?_, ?_, ?_⟩
  · rw [hworker, htouches]
    exact h.worker
  · rw [hslot, htouches]
    exact h.slot
  · intro result heq hnot
    rw [hreturned result heq] at hnot
    cases hnot
  · rw [htouches]
    exact h.single

/-- INTERNAL: a worker that goes on with what it has to report.
SOURCE: mmap/prefetch.rs:41-45, 65, 105-114 -/
theorem Carried.goes_on (h : Carried s) (hreports : Reports s.touches s'.worker)
    (hcaller : s'.caller = s.caller) (hslot : s'.slot = s.slot)
    (htouches : s'.touches = s.touches) : Carried s' := by
  refine ⟨?_, ?_, ?_, ?_⟩
  · rw [htouches]
    exact hreports
  · rw [hslot, htouches]
    exact h.slot
  · rw [hcaller, htouches]
    exact h.returned
  · rw [htouches]
    exact h.single

/-- INTERNAL: a touch that faults is what the worker reports from then on.
SOURCE: mmap/prefetch.rs:50-62 -/
theorem Carried.touches (hcarried : Carried s) (h : Protocol page call s) {fault : Bool}
    {pos : Usize} (hw : s.worker = .touch pos) :
    Carried
      { s with
        worker := if fault then .lock (.error (.sigbus (call.basePtr + pos)))
          else .head (pos + page)
        touches := s.touches ++ [⟨call.basePtr + pos, fault, s.mapped⟩] } := by
  have hopen := h.open (by rw [hw]; rfl)
  have hslot := h.empty (by rw [hw]; rfl)
  have hfaults : faultsOf s.touches = [] := hcarried.at hw
  refine ⟨?_, ?_, ?_, ?_⟩
  · cases fault with
    | false => simpa [Reports, faultsOf_append] using hfaults
    | true => simp [Reports, faultsOf_append, hfaults, reportOf]
  · intro result heq
    rw [hslot] at heq
    cases heq
  · intro result heq
    dsimp only at heq
    rw [heq] at hopen
    cases hopen
  · rw [faultsOf_append, hfaults]
    cases fault <;> simp

/-- INTERNAL: **every step carries the fault on.** The worker carries the result of its probe to
the slot, and the caller what it takes out of the slot to its return.
SOURCE: mmap/prefetch.rs:35-66, 90-150 -/
theorem Carried.step (act : PrefetchAct) (s s' : Prefetch)
    (h : Protocol page call s ∧ Carried s) (hstep : Prefetch.step page call act s = some s') :
    Protocol page call s' ∧ Carried s' := by
  obtain ⟨hprotocol, hcarried⟩ := h
  refine ⟨hprotocol.step act s s' hstep, ?_⟩
  cases Prefetch.step_move hstep with
  | spawn hc =>
    have hreports := hcarried.at (hprotocol.caller_at hc).1
    exact ⟨hreports, hcarried.slot, by simp, hcarried.single⟩
  | take hc =>
    obtain ⟨result, hslot, hconclude, -⟩ := hprotocol.takes hc
    refine ⟨hcarried.worker, by simp, ?_, hcarried.single⟩
    intro returned heq _
    rw [← CallerPc.returned.inj heq, hconclude]
    exact hcarried.slot result hslot
  | timedOut _ _ =>
    refine hcarried.goto ?_ rfl rfl rfl
    rintro result ⟨⟩
    rfl
  | lock _ _ | wait _ _ | found _ _ | relock _ _ _ | giveUp _ _ | goOn _ _ _ | cancel _
    | unlock _ _ | joined _ _ | lockAgain _ _ | wake _ _ _ _ =>
    exact hcarried.goto (by simp) rfl rfl rfl
  | store result hw =>
    refine ⟨trivial, ?_, hcarried.returned, hcarried.single⟩
    intro stored heq
    rw [← Option.some.inj heq]
    exact hcarried.at hw
  | install hw | enter _ hw _ | leave _ hw _ | acquire _ hw _ | notify hw | release hw
    | stop _ hw _ | look _ hw =>
    have hreports := hcarried.at hw
    exact hcarried.goes_on hreports rfl rfl rfl
  | touch fault pos hw => exact hcarried.touches hprotocol hw
  | expire _ | dropMapping _ _ =>
    exact ⟨hcarried.worker, hcarried.slot, hcarried.returned, hcarried.single⟩

/-- INTERNAL: a run has a fault exactly when one of its steps is a touch that faults.
SOURCE: mmap/prefetch.rs:50-62 -/
theorem faultsOf_iff {acts : List PrefetchAct}
    (h : run (Prefetch.step page call) acts .init = some s) :
    faultsOf s.touches ≠ [] ↔ ¬ Along (Prefetch.step page call) Quiet acts .init := by
  have hmark := run_mark (C := Quiet) (fun _ => True) (fun s => faultsOf s.touches ≠ [])
    (fun _ _ _ _ _ => trivial) ?_ acts trivial h
  · rw [hmark]
    simp [Prefetch.init, faultsOf]
  · intro act u u' _ hstep
    cases Prefetch.step_move hstep with
    | touch fault pos _ =>
      rw [faultsOf_append]
      cases fault <;> simp [Quiet]
    | _ => simp [Quiet]

/-! ## What the call records -/

/-- The event reports a fault. -/
def isSigbus : MmapEvent → Bool
  | .sigbus _ => true
  | _ => false

/-- The call has recorded the fault at the address: counted it once, emitted one event of a
fault, with that address, and poisoned the mapping if the count has come to the threshold. -/
def FaultRecorded (self : SafeMmap) (o : Outcome Unit) (addr : Usize) : Prop :=
  o.mmap.sigbusCount = self.sigbusCount + 1 ∧
    o.events.filter isSigbus = self.emitEvent (.sigbus addr) ∧
    (o.mmap.poisoned = true ↔ self.sigbusCount + 1 ≥ self.maxSigbus)

/-- INTERNAL: **`record_sigbus_from` records the fault.**
SOURCE: mmap/mod.rs:1039-1055 -/
theorem settle_recorded {self : SafeMmap} (hclean : self.poisoned = false) (addr : Usize)
    (touched : List Usize) :
    FaultRecorded self (self.settle (.error (.sigbus addr)) touched 0) addr := by
  unfold SafeMmap.settle SafeMmap.recordSigbusFrom
  dsimp only
  split
  · rename_i hcount
    refine ⟨rfl, ?_, by simpa using hcount⟩
    unfold SafeMmap.emitEvent
    cases self.onEvent <;> rfl
  · rename_i hcount
    refine ⟨rfl, ?_, by simpa [hclean] using hcount⟩
    unfold SafeMmap.emitEvent
    cases self.onEvent <;> rfl

/-- INTERNAL: a count that stays is not a fault recorded. -/
theorem not_recorded {self : SafeMmap} {o : Outcome Unit} {addr : Usize} (h : o.mmap = self) :
    ¬ FaultRecorded self o addr := by
  rintro ⟨hcount, -⟩
  rw [h] at hcount
  simp at hcount

/-- INTERNAL: the call that `prefetch_with_timeout` makes decides what it returns.
SOURCE: mmap/mod.rs:766-787 -/
theorem timedPrefetch_eq {self : SafeMmap} {page offset len : Usize} {timeout : ℕ}
    {acts : List PrefetchAct} {s : Prefetch} {result : Except AccessError Unit}
    (hclean : self.poisoned = false) (hin : offset.toNat + len.toNat ≤ self.raw.len.toNat)
    (h : run (Prefetch.step page (self.prefetchCall offset len timeout)) acts .init = some s)
    (hreturned : s.caller = .returned result) :
    self.timedPrefetch page offset len timeout acts =
      some (self.prefetchWithTimeout offset len result (s.touches.map Touch.addr)) ∧
    self.checkPoisoned = .ok () ∧ self.checkBounds offset len = .ok () := by
  have hgate := SafeMmap.checkPoisoned_clean hclean
  have hbounds := checkBounds_inside hin
  refine ⟨?_, hgate, hbounds⟩
  unfold SafeMmap.timedPrefetch
  rw [hgate, hbounds]
  simp only [h, hreturned]

/-- RESULT: **when a prefetch fault is recorded.** On a mapping that is not poisoned and a range
inside it, in every interleaving of caller, worker and deadline that comes to the return of the
call, the worker has at most one fault, and it has been counted once, reported in one event and
held against the threshold, exactly when no touch faults or the caller does not give up, with a
re-check after the time is over that finds the slot empty.
SOURCE: mmap/mod.rs:766-787, mmap/prefetch.rs:90-150 -/
theorem prefetch_fault_recorded_iff (self : SafeMmap) (page offset len : Usize) (timeout : ℕ)
    (acts : List PrefetchAct) (s : Prefetch) (result : Except AccessError Unit)
    (hclean : self.poisoned = false) (hin : offset.toNat + len.toNat ≤ self.raw.len.toNat)
    (h : run (Prefetch.step page (self.prefetchCall offset len timeout)) acts .init = some s)
    (hreturned : s.caller = .returned result) :
    (faultsOf s.touches).length ≤ 1 ∧
    ∃ o, self.timedPrefetch page offset len timeout acts = some o ∧
      ((∀ addr ∈ faultsOf s.touches, FaultRecorded self o addr) ↔
        Along (Prefetch.step page (self.prefetchCall offset len timeout)) Quiet acts .init ∨
        Along (Prefetch.step page (self.prefetchCall offset len timeout)) KeepsWaiting acts
          .init) := by
  obtain ⟨-, hcarried⟩ := reach_invariant _ Carried.step acts
    ⟨protocol_init page (self.prefetchCall offset len timeout), carried_init⟩ h
  obtain ⟨houtcome, hgate, hbounds⟩ := timedPrefetch_eq hclean hin h hreturned
  have hquiet := faultsOf_iff h
  have hgaveUp := gaveUp_iff h
  rw [hreturned] at hgaveUp
  refine ⟨hcarried.single, _, houtcome, ?_⟩
  by_cases hfault : faultsOf s.touches = []
  · have halong := not_not.mp (mt hquiet.mpr (not_not.mpr hfault))
    simp [hfault, halong]
  · have hnot := hquiet.mp hfault
    rw [or_iff_right hnot]
    cases hgave : gaveUp (.returned result) with
    | true =>
      -- the caller returns a timeout and leaves the mapping as it is
      obtain ⟨o, l, d, rfl⟩ : ∃ o l d, result = .error (.timeout o l d) := by
        cases result with
        | ok value => cases hgave
        | error e =>
          cases e with
          | timeout o l d => exact ⟨o, l, d, rfl⟩
          | _ => cases hgave
      obtain ⟨addr, hmem⟩ := List.exists_mem_of_ne_nil _ hfault
      have hsame : (self.prefetchWithTimeout offset len (.error (.timeout o l d))
          (s.touches.map Touch.addr)).mmap = self := by
        unfold SafeMmap.prefetchWithTimeout
        rw [hgate, hbounds]
      exact iff_of_false (fun hall => not_recorded hsame (hall addr hmem)) (hgaveUp.mp hgave)
    | false =>
      have halong := not_not.mp (mt hgaveUp.mpr (by rw [hgave]; exact Bool.false_ne_true))
      have hreport := hcarried.returned result hreturned hgave
      refine iff_of_true ?_ halong
      intro addr hmem
      rw [hreport] at hmem
      cases result with
      | ok value => cases hmem
      | error e =>
        cases e with
        | sigbus a =>
          rw [List.mem_singleton.mp hmem]
          unfold SafeMmap.prefetchWithTimeout
          rw [hgate, hbounds]
          exact settle_recorded hclean a _
        | _ => cases hmem

/-- A mapping of two pages with a callback, which one fault poisons. -/
def watched : SafeMmap where
  raw := ⟨0x10000, 8192, true⟩
  sigbusCount := 0
  poisoned := false
  maxSigbus := 1
  onEvent := true

/-- The first page faults in time. -/
def faultInTime : List PrefetchAct :=
  [.caller, .worker, .worker, .load false, .touch true, .worker, .worker, .worker, .worker,
    .caller, .caller, .caller, .caller, .caller, .caller]

/-- Where the run `faultInTime` ends. -/
def faultInTimeEnd : Prefetch :=
  { Prefetch.init with
    caller := .returned (.error (.sigbus 0x10000)), worker := .done
    touches := [⟨0x10000, true, true⟩] }

/-- A fault that is in the slot when the caller looks is recorded.
SOURCE: mmap/mod.rs:766-787 -/
theorem prefetch_fault_recorded_inTime :
    run (Prefetch.step 4096 (watched.prefetchCall 0 4096 1000)) faultInTime .init =
      some faultInTimeEnd ∧
    ∃ o, watched.timedPrefetch 4096 0 4096 1000 faultInTime = some o ∧
      ∀ addr ∈ faultsOf faultInTimeEnd.touches, FaultRecorded watched o addr := by
  have hrun : run (Prefetch.step 4096 (watched.prefetchCall 0 4096 1000)) faultInTime .init =
      some faultInTimeEnd := rfl
  have hkeeps : Along (Prefetch.step 4096 (watched.prefetchCall 0 4096 1000)) KeepsWaiting
      faultInTime .init := not_not.mp (mt (gaveUp_iff hrun).mpr (by decide))
  obtain ⟨-, o, ho, hiff⟩ := prefetch_fault_recorded_iff watched 4096 0 4096 1000 faultInTime
    faultInTimeEnd (.error (.sigbus 0x10000)) rfl (by decide) hrun rfl
  exact ⟨hrun, o, ho, hiff.mpr (Or.inr hkeeps)⟩

/-- The first page stalls, the caller gives up and waits for the worker, and the page faults. -/
def faultAfterwards : List PrefetchAct :=
  [.caller, .worker, .worker, .load false, .caller, .caller, .expire, .wake .timedOut, .caller,
    .caller, .caller, .caller, .touch true, .worker, .worker, .worker, .worker, .caller]

/-- Where the run `faultAfterwards` ends. -/
def faultAfterwardsEnd : Prefetch :=
  { Prefetch.init with
    caller := .returned (.error (.timeout 0 4096 1000)), worker := .done
    slot := some (.error (.sigbus 0x10000)), cancelled := true, timer := .expired none
    touches := [⟨0x10000, true, true⟩] }

/-- A fault that comes while the caller waits for the worker after its timeout is lost: the
mapping, which one fault should poison, is as it was before the call.
SOURCE: mmap/prefetch.rs:123-132, mmap/mod.rs:776-784 -/
theorem prefetch_fault_lost :
    run (Prefetch.step 4096 (watched.prefetchCall 0 4096 1000)) faultAfterwards .init =
      some faultAfterwardsEnd ∧
    faultsOf faultAfterwardsEnd.touches = [0x10000] ∧
    ∃ o, watched.timedPrefetch 4096 0 4096 1000 faultAfterwards = some o ∧ o.mmap = watched ∧
      o.events = [.prefetchTimeout 0 4096] ∧
      ¬ ∀ addr ∈ faultsOf faultAfterwardsEnd.touches, FaultRecorded watched o addr := by
  refine ⟨rfl, rfl, ⟨.error (.timeout 0 4096 1000), [0x10000], 0, [.prefetchTimeout 0 4096],
    watched⟩, rfl, rfl, rfl, ?_⟩
  intro hall
  exact not_recorded rfl (hall 0x10000 (by decide))

end MmapShield.Analysis
