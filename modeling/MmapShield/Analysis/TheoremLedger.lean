import MmapShield.Analysis.TheoremAccounting
import MmapShield.Computation.Simulation
import MmapShield.Model.Resetting

/-!
# The accounts of a mapping that is reset

`fault_accounting` closes the books of a mapping that nobody resets and whose counter does not
wrap. Here the threads also prefetch and reset, at any time and as often as they like, and the
counter may wrap. What is left of the books is what a monitor of the events relies on
(`reset_ledger`): one `Sigbus` event for each call that returned one, with its address, one
`PrefetchTimeout` for each call that timed out, and no `Poisoned` event below the threshold or
without a fault of its own. A reset that no other call overlaps makes the mapping as good as new
(`reset_renews`).

Each account is a sum over what has been emitted and returned and over what the threads still owe
at the point of the code where they are; `Move` lists what a step can do to them.
-/

set_option autoImplicit false

namespace MmapShield.Analysis.Ledger

open MmapShield.Computation MmapShield.Model

variable {ι : Type} [DecidableEq ι] {s s' : Resetting ι} {t : ι} {page : Usize}

/-! ## What a step can do -/

/-- The call of the thread returns a timeout. -/
def timeoutOwed : CallPc → ℕ
  | .ret (.error (.timeout _ _ _)) => 1
  | _ => 0

/-- What holds after every run: a thread in a prefetch or a reset is in no other call, and the
threshold and the callback are those of the mapping. -/
structure Steady (mmap : SafeMmap) (s : Resetting ι) : Prop where
  sane : Sane s.share
  idle : ∀ t, s.long t ≠ .away → s.share.pc t = .idle
  max : s.share.mmap.maxSigbus = mmap.maxSigbus
  heard : s.share.mmap.onEvent = mmap.onEvent

/-- A step of the thread `t`: one of a call that `Sharing` knows, or one of a prefetch or of a
reset, which begins with a thread that owes nothing. -/
inductive Move (page : Usize) (s : Resetting ι) (t : ι) : Resetting ι → Prop
  | share (act : ShareAct) (share : Sharing ι) (overflowed : Bool) (haway : s.long t = .away)
      (hstep : Sharing.step page (t, act) s.share = some share) :
      Move page s t ⟨share, s.long, overflowed⟩
  | turn (c : LongPc) (hidle : s.share.pc t = .idle) : Move page s t (s.turn t c)
  | rejoin (c : CallPc) (hidle : s.share.pc t = .idle) (hquiet : quietPc c = true)
      (htime : timeoutOwed c = 0) (hsane : PcSane s.share.mmap.raw.len c) :
      Move page s t (s.rejoin t c)
  | fault (addr : Usize) (hidle : s.share.pc t = .idle) :
      Move page s t (s.rejoin t (.record (.sigbus addr)))
  | timeout (o l : Usize) (d : ℕ) (offset len : Usize) (hidle : s.share.pc t = .idle) :
      Move page s t
        { s.turn t .away with
          share := { s.share.goto t (.ret (.error (.timeout o l d))) with
            events := s.share.events ++ s.share.mmap.emitEvent (.prefetchTimeout offset len) } }
  | clear (hidle : s.share.pc t = .idle) :
      Move page s t
        { s.turn t .zeroing with
          share := { s.share with mmap := { s.share.mmap with poisoned := false } } }
  | zero (hidle : s.share.pc t = .idle) :
      Move page s t
        { s.turn t .away with
          share := { s.share with mmap := { s.share.mmap with sigbusCount := 0 } } }

/-- INTERNAL: a failed bounds check is neither a fault nor a timeout.
SOURCE: mmap/mod.rs:1022-1037 -/
theorem checkBounds_error {mmap : SafeMmap} {offset len : Usize} {e : AccessError}
    (h : mmap.checkBounds offset len = .error e) : e = .outOfBounds offset len mmap.raw.len := by
  unfold SafeMmap.checkBounds at h
  split at h
  · cases h
    rfl
  · split at h
    · cases h
      rfl
    · cases h

/-- INTERNAL: **what a step can do.**
SOURCE: mmap/mod.rs:503-585, 668-686, 766-839, 1008-1061 -/
theorem step_move {mmap : SafeMmap} {act : ResetAct} (h : Steady mmap s)
    (hstep : Resetting.step page (t, act) s = some s') : Move page s t s' := by
  have hidle {c : LongPc} (hlong : s.long t = c) (hc : c ≠ .away) : s.share.pc t = .idle :=
    h.idle t (by rw [hlong]; exact hc)
  unfold Resetting.step at hstep
  dsimp only at hstep
  split at hstep
  · rename_i act haway
    obtain ⟨share, hshare, rfl⟩ := Option.map_eq_some_iff.mp hstep
    exact .share act share _ haway hshare
  · rename_i offset len hlong hpc
    cases hstep
    exact .turn _ hpc
  · rename_i offset len hlong
    have hpc := hidle hlong (by simp)
    split at hstep
    · cases hstep
      exact .rejoin .refused hpc rfl rfl trivial
    · cases hstep
      exact .turn _ hpc
  · rename_i offset len hlong
    have hpc := hidle hlong (by simp)
    split at hstep
    · rename_i e he
      cases hstep
      rw [checkBounds_error he]
      exact .rejoin _ hpc rfl rfl trivial
    · cases hstep
      exact .turn _ hpc
  · rename_i result offset len hlong
    have hpc := hidle hlong (by simp)
    cases hstep
    unfold Resetting.resultStep
    split
    · exact .fault _ hpc
    · exact .timeout _ _ _ _ _ hpc
    · rename_i hfault htimeout
      refine .rejoin _ hpc ?_ ?_ trivial
      · cases result with
        | ok u => rfl
        | error e =>
            cases e with
            | sigbus addr => exact absurd rfl (hfault addr)
            | _ => rfl
      · cases result with
        | ok u => rfl
        | error e =>
            cases e with
            | timeout o l d => exact absurd rfl (htimeout o l d)
            | _ => rfl
  · rename_i hlong hpc
    cases hstep
    exact .clear hpc
  · rename_i hlong
    cases hstep
    exact .zero (hidle hlong (by simp))
  · cases hstep

/-- INTERNAL: a step of a call leaves the other threads where they are, and the threshold and the
callback as they are. -/
theorem share_frame {share share' : Sharing ι} (hmove : Sharing.Move share t share') :
    (∀ u, u ≠ t → share'.pc u = share.pc u) ∧
      share'.mmap.maxSigbus = share.mmap.maxSigbus ∧
      share'.mmap.onEvent = share.mmap.onEvent := by
  cases hmove <;> exact ⟨fun u hu => Function.update_of_ne hu _ _, rfl, rfl⟩

/-- INTERNAL: nothing has changed before the first call. -/
theorem steady_init (ι : Type) (mmap : SafeMmap) : Steady mmap (Resetting.init ι mmap) where
  sane := fun _ => trivial
  idle := fun _ _ => rfl
  max := rfl
  heard := rfl

/-- INTERNAL: a thread that is in no call moves between its calls. -/
theorem Steady.aside {mmap m : SafeMmap} {c : CallPc} {d : LongPc} {e : List MmapEvent}
    (h : Steady mmap s) (hsane : PcSane s.share.mmap.raw.len c) (hcd : d ≠ .away → c = .idle)
    (hraw : m.raw = s.share.mmap.raw) (hmax : m.maxSigbus = s.share.mmap.maxSigbus)
    (hheard : m.onEvent = s.share.mmap.onEvent) :
    Steady mmap ⟨⟨m, Function.update s.share.pc t c, e, s.share.returns, s.share.recorded⟩,
      Function.update s.long t d, s.overflowed⟩ where
  sane := by
    intro u
    by_cases hu : u = t
    · subst hu
      simpa [hraw] using hsane
    · simpa [hu, hraw] using h.sane u
  idle := by
    intro u hlong
    by_cases hu : u = t
    · subst hu
      simpa using hcd (by simpa using hlong)
    · simpa [hu] using h.idle u (by simpa [hu] using hlong)
  max := hmax.trans h.max
  heard := hheard.trans h.heard

/-- INTERNAL: every step keeps the threads steady. -/
theorem Steady.move {mmap : SafeMmap} (h : Steady mmap s) (hmove : Move page s t s') :
    Steady mmap s' := by
  have hstay (hidle : s.share.pc t = .idle) : s.share.pc = Function.update s.share.pc t .idle := by
    rw [← hidle, Function.update_eq_self]
  cases hmove with
  | share act share wrapped haway hstep =>
      have hmove := share_move h.sane hstep
      obtain ⟨hothers, hmax, hheard⟩ := share_frame hmove
      refine ⟨h.sane.move hmove, ?_, hmax.trans h.max, hheard.trans h.heard⟩
      intro u hu
      have hne : u ≠ t := by
        rintro rfl
        exact hu haway
      rw [hothers u hne]
      exact h.idle u hu
  | turn c hidle =>
      have hkeep := h.aside (t := t) (c := .idle) (d := c) (m := s.share.mmap)
        (e := s.share.events) trivial (fun _ => rfl)
        rfl rfl rfl
      rw [← hstay hidle] at hkeep
      exact hkeep
  | rejoin c hidle hquiet htime hsane =>
      exact h.aside hsane (by simp) rfl rfl rfl
  | fault addr hidle => exact h.aside ⟨addr, rfl⟩ (by simp) rfl rfl rfl
  | timeout o l d offset len hidle => exact h.aside trivial (by simp) rfl rfl rfl
  | clear hidle =>
      have hkeep := h.aside (t := t) (c := .idle) (d := .zeroing)
        (m := { s.share.mmap with poisoned := false }) (e := s.share.events) trivial (fun _ => rfl)
        rfl rfl rfl
      rw [← hstay hidle] at hkeep
      exact hkeep
  | zero hidle =>
      have hkeep := h.aside (t := t) (c := .idle) (d := .away)
        (m := { s.share.mmap with sigbusCount := 0 }) (e := s.share.events) trivial (fun _ => rfl)
        rfl rfl rfl
      rw [← hstay hidle] at hkeep
      exact hkeep

/-! ## What a step enters into the books -/

/-- What a step of the thread `t` enters: the flag and the counter are not part of the books, but
only a fault at the threshold sets the flag. -/
inductive Entry (s : Sharing ι) (t : ι) : Sharing ι → Prop
  | quiet (mmap : SafeMmap) (c : CallPc) (hp : quietPc (s.pc t) = true) (hc : quietPc c = true)
      (hold : timeoutOwed (s.pc t) = 0) (hnew : timeoutOwed c = 0)
      (hflag : mmap.poisoned = true → s.mmap.poisoned = true) :
      Entry s t { s.goto t c with mmap := mmap }
  | fault (addr : Usize) (hp : quietPc (s.pc t) = true) (hold : timeoutOwed (s.pc t) = 0) :
      Entry s t (s.goto t (.record (.sigbus addr)))
  | record (addr : Usize) (hp : s.pc t = .record (.sigbus addr)) :
      Entry s t { s.goto t (.emitSigbus (.sigbus addr) (s.mmap.sigbusCount + 1)) with
        mmap := { s.mmap with sigbusCount := s.mmap.sigbusCount + 1 }
        recorded := s.recorded + 1 }
  | emitSigbus (addr : Usize) (count : UInt32) (hp : s.pc t = .emitSigbus (.sigbus addr) count) :
      Entry s t { s.goto t (if count ≥ s.mmap.maxSigbus then .store (.sigbus addr) count
          else .ret (.error (.sigbus addr))) with
        events := s.events ++ s.mmap.emitEvent (.sigbus addr) }
  | store (addr : Usize) (count : UInt32) (hp : s.pc t = .store (.sigbus addr) count) :
      Entry s t { s.goto t (.emitPoisoned (.sigbus addr) count) with
        mmap := { s.mmap with poisoned := true } }
  | emitPoisoned (addr : Usize) (count : UInt32)
      (hp : s.pc t = .emitPoisoned (.sigbus addr) count) :
      Entry s t { s.goto t (.ret (.error (.sigbus addr))) with
        events := s.events ++ s.mmap.emitEvent (.poisoned count) }
  | timeout (o l : Usize) (d : ℕ) (offset len : Usize) (hp : s.pc t = .idle) :
      Entry s t { s.goto t (.ret (.error (.timeout o l d))) with
        events := s.events ++ s.mmap.emitEvent (.prefetchTimeout offset len) }
  | ret (result : Except AccessError Unit) (hp : s.pc t = .ret result) :
      Entry s t { s.goto t .idle with returns := s.returns ++ [result] }

/-- INTERNAL: no call of `Sharing` times out.
SOURCE: mmap/mod.rs:503-585, 668-686, 815-839, 1013-1061 -/
theorem share_timeoutOwed {share share' : Sharing ι} {act : ShareAct} (hsane : Sane share)
    (hstep : Sharing.step page (t, act) share = some share') : timeoutOwed (share'.pc t) = 0 := by
  have hgoto (c : CallPc) (hc : timeoutOwed c = 0) :
      timeoutOwed (Function.update share.pc t c t) = 0 := by
    rw [Function.update_self]
    exact hc
  have hbounds (mmap : SafeMmap) (call : CallKind) :
      timeoutOwed (Sharing.boundsStep mmap call) = 0 := by
    have hcheck (offset len : Usize) (e : AccessError)
        (he : mmap.checkBounds offset len = .error e) : timeoutOwed (.ret (.error e)) = 0 := by
      rw [checkBounds_error he]
      rfl
    cases call with
    | read start stop =>
        simp only [Sharing.boundsStep]
        split <;> simp [timeoutOwed]
    | write offset len =>
        simp only [Sharing.boundsStep]
        split
        · exact hcheck _ _ _ ‹_›
        · split <;> simp [timeoutOwed]
    | readInto offset len =>
        simp only [Sharing.boundsStep]
        split
        · exact hcheck _ _ _ ‹_›
        · simp [timeoutOwed]
    | probe offset len =>
        simp only [Sharing.boundsStep]
        split
        · exact hcheck _ _ _ ‹_›
        · simp [timeoutOwed]
  have hprobe (pos stop : Usize) (fault : Option Usize) :
      timeoutOwed (Sharing.probeStep page share.mmap pos stop fault) = 0 := by
    unfold Sharing.probeStep
    split
    · split
      · simp [timeoutOwed]
      · split <;> simp [timeoutOwed]
    · simp [timeoutOwed]
  have hpc := hsane t
  unfold Sharing.step at hstep
  dsimp only at hstep
  split at hstep
  · cases hstep
    exact hgoto _ rfl
  · cases hstep
    refine hgoto _ ?_
    split <;> rfl
  · cases hstep
    exact hgoto _ rfl
  · cases hstep
    exact hgoto _ (hbounds _ _)
  · rename_i fault hp
    cases hstep
    refine hgoto _ ?_
    cases fault <;> rfl
  · cases hstep
    exact hgoto _ (hprobe _ _ _)
  · cases hstep
    exact hgoto _ rfl
  · rename_i err count hp
    rw [hp] at hpc
    obtain ⟨addr, rfl⟩ := hpc
    cases hstep
    refine hgoto _ ?_
    split <;> rfl
  · cases hstep
    exact hgoto _ rfl
  · rename_i err count hp
    rw [hp] at hpc
    obtain ⟨addr, rfl⟩ := hpc
    cases hstep
    exact hgoto _ rfl
  · cases hstep
    exact hgoto _ rfl
  · cases hstep

/-- INTERNAL: a step of a call of `Sharing`. -/
theorem share_entry {share share' : Sharing ι} {act : ShareAct} (hsane : Sane share)
    (hstep : Sharing.step page (t, act) share = some share') : Entry share t share' := by
  have hmove := share_move hsane hstep
  have howed := share_timeoutOwed hsane hstep
  by_cases hret : ∃ result, share.pc t = .ret result
  · obtain ⟨result, hp⟩ := hret
    have hback : share' = { share.goto t .idle with returns := share.returns ++ [result] } := by
      cases act with
      | next => simpa [Sharing.step, hp] using hstep.symm
      | call call => simp [Sharing.step, hp] at hstep
      | touch fault => simp [Sharing.step, hp] at hstep
    rw [hback]
    exact .ret result hp
  · have hold : timeoutOwed (share.pc t) = 0 := by
      cases hp : share.pc t with
      | ret result => exact absurd ⟨result, hp⟩ hret
      | _ => rfl
    cases hmove with
    | silent c hp hc hc' =>
        have hnew : timeoutOwed c = 0 := by simpa [Sharing.goto] using howed
        exact .quiet share.mmap c hp hc hold hnew id
    | fault addr hp => exact .fault addr hp hold
    | record addr hp => exact .record addr hp
    | emitSigbus addr count hp => exact .emitSigbus addr count hp
    | store addr count hp => exact .store addr count hp
    | emitPoisoned addr count hp => exact .emitPoisoned addr count hp
    | ret result hp => exact .ret result hp

/-- INTERNAL: **what a step enters into the books.** -/
theorem entry_of_move {mmap : SafeMmap} (h : Steady mmap s) (hmove : Move page s t s') :
    Entry s.share t s'.share := by
  -- the thread stays where it is in the calls of `Sharing`
  have hstay (m : SafeMmap) (hidle : s.share.pc t = .idle)
      (hflag : m.poisoned = true → s.share.mmap.poisoned = true) :
      Entry s.share t { s.share with mmap := m } := by
    have hentry : Entry s.share t { s.share.goto t .idle with mmap := m } :=
      .quiet m .idle (by rw [hidle]; rfl) rfl (by rw [hidle]; rfl) rfl hflag
    have hsame : Function.update s.share.pc t .idle = s.share.pc := by
      rw [← hidle, Function.update_eq_self]
    simpa [Sharing.goto, hsame] using hentry
  cases hmove with
  | share act share wrapped haway hstep => exact share_entry h.sane hstep
  | turn c hidle => exact hstay s.share.mmap hidle id
  | rejoin c hidle hquiet htime hsane =>
      exact .quiet s.share.mmap c (by rw [hidle]; rfl) hquiet (by rw [hidle]; rfl) htime id
  | fault addr hidle => exact .fault addr (by rw [hidle]; rfl) (by rw [hidle]; rfl)
  | timeout o l d offset len hidle => exact .timeout o l d offset len hidle
  | clear hidle =>
      refine hstay _ hidle ?_
      rintro ⟨⟩
  | zero hidle => exact hstay _ hidle id

/-! ## The books -/

/-- The address that a `Sigbus` event reports. -/
def eventFault : MmapEvent → Option Usize
  | .sigbus faultAddress => some faultAddress
  | _ => none

/-- The event is a `PrefetchTimeout`. -/
def isTimeout : MmapEvent → Bool
  | .prefetchTimeout _ _ => true
  | _ => false

/-- The event is a `Poisoned`. -/
def isPoisoned : MmapEvent → Bool
  | .poisoned _ => true
  | _ => false

/-- The call returned `AccessError::Timeout`. -/
def timedOut : Except AccessError Unit → Bool
  | .error (.timeout _ _ _) => true
  | _ => false

/-- The `Sigbus` event that a thread has yet to emit. -/
def sigbusOwed : CallPc → Multiset Usize
  | .record err | .emitSigbus err _ => ((errFault err).toList : Multiset Usize)
  | _ => 0

/-- The thread may have to emit a `Poisoned` event. -/
def poisonOwed : CallPc → ℕ
  | .emitSigbus _ _ | .store _ _ | .emitPoisoned _ _ => 1
  | _ => 0

/-- The count that a thread is about to report in a `Poisoned` event. -/
def reporting : CallPc → Option UInt32
  | .store _ count | .emitPoisoned _ count => some count
  | _ => none

section Books

variable [Fintype ι]

/-- The books of a mapping with a callback and the threshold `max`, open accounts included. -/
structure Books (max : UInt32) (s : Sharing ι) : Prop where
  sigbus : (s.events.filterMap eventFault : Multiset Usize) + total sigbusOwed s.pc =
    (s.returns.filterMap faultOf : Multiset Usize) + total inflight s.pc
  timeouts : s.events.countP isTimeout = s.returns.countP timedOut + total timeoutOwed s.pc
  poisons : s.events.countP isPoisoned + total poisonOwed s.pc ≤ s.recorded
  above : ∀ count, .poisoned count ∈ s.events → max ≤ count
  deciding : ∀ t count, reporting (s.pc t) = some count → max ≤ count
  flagged : s.mmap.poisoned = true →
    (∃ count, .poisoned count ∈ s.events) ∨ ∃ t err count, s.pc t = .emitPoisoned err count

variable {share share' : Sharing ι} {max : UInt32}

omit [DecidableEq ι] [Fintype ι] in
/-- INTERNAL: a thread without a fault owes no event of one. -/
theorem quiet_owes {c : CallPc} (h : quietPc c = true) :
    sigbusOwed c = 0 ∧ poisonOwed c = 0 ∧ reporting c = none := by
  cases c with
  | record err => cases h
  | emitSigbus err count => cases h
  | store err count => cases h
  | emitPoisoned err count => cases h
  | _ => exact ⟨rfl, rfl, rfl⟩

/-- INTERNAL: every `Sigbus` event belongs to a call that returns one, and every such call emits
its event.
SOURCE: mmap/mod.rs:1039-1061 -/
theorem Books.sigbus_entry (h : Books max share) (hheard : share.mmap.onEvent = true)
    (hentry : Entry share t share') :
    (share'.events.filterMap eventFault : Multiset Usize) + total sigbusOwed share'.pc =
      (share'.returns.filterMap faultOf : Multiset Usize) + total inflight share'.pc := by
  -- a step that opens or closes no account
  have hsame {c : CallPc} {e : List MmapEvent} (he : e.filterMap eventFault = [])
      (howed : sigbusOwed c = sigbusOwed (share.pc t))
      (hfault : inflight c = inflight (share.pc t)) :
      ((share.events ++ e).filterMap eventFault : Multiset Usize) +
          total sigbusOwed (Function.update share.pc t c) =
        (share.returns.filterMap faultOf : Multiset Usize) +
          total inflight (Function.update share.pc t c) := by
    rw [List.filterMap_append, he, List.append_nil, total_update_same howed,
      total_update_same hfault]
    exact h.sigbus
  cases hentry with
  | quiet mmap c hp hc hold hnew hflag =>
      have hsilent := hsame (c := c) (e := []) rfl
        ((quiet_owes hc).1.trans (quiet_owes hp).1.symm)
        ((quietPc_zero hc max).1.trans (quietPc_zero hp max).1.symm)
      simpa [Sharing.goto] using hsilent
  | fault addr hp hold =>
      have howed : total sigbusOwed (Function.update share.pc t (.record (.sigbus addr))) =
          total sigbusOwed share.pc + {addr} := by
        apply total_update_add
        rw [(quiet_owes hp).1, zero_add]
        rfl
      have hfault : total inflight (Function.update share.pc t (.record (.sigbus addr))) =
          total inflight share.pc + {addr} := by
        apply total_update_add
        rw [(quietPc_zero hp max).1, zero_add]
        rfl
      simp only [Sharing.goto]
      rw [howed, hfault, ← add_assoc, ← add_assoc, h.sigbus]
  | record addr hp =>
      have hcount := hsame (c := .emitSigbus (.sigbus addr) (share.mmap.sigbusCount + 1))
        (e := []) rfl (by rw [hp]; rfl) (by rw [hp]; rfl)
      simpa [Sharing.goto] using hcount
  | emitSigbus addr count hp =>
      -- the event is emitted, the result is still owed
      have hnext (c : CallPc) (howed : sigbusOwed c = 0) (hfault : inflight c = {addr}) :
          ((share.events ++ [MmapEvent.sigbus addr]).filterMap eventFault : Multiset Usize) +
              total sigbusOwed (Function.update share.pc t c) =
            (share.returns.filterMap faultOf : Multiset Usize) +
              total inflight (Function.update share.pc t c) := by
        have hdrop : total sigbusOwed (Function.update share.pc t c) + {addr} =
            total sigbusOwed share.pc := by
          apply total_update_drop
          rw [hp, howed, zero_add]
          rfl
        have hkeep : inflight c = inflight (share.pc t) := by
          rw [hfault, hp]
          rfl
        rw [total_update_same hkeep, ← h.sigbus, ← hdrop, List.filterMap_append,
          ← Multiset.coe_add, add_assoc, add_comm (total sigbusOwed _)]
        rfl
      simp only [Sharing.goto, SafeMmap.emitEvent, hheard, if_true]
      split
      · exact hnext _ rfl rfl
      · exact hnext _ rfl rfl
  | store addr count hp =>
      have hstore := hsame (c := .emitPoisoned (.sigbus addr) count) (e := []) rfl
        (by rw [hp]; rfl) (by rw [hp]; rfl)
      simpa [Sharing.goto] using hstore
  | emitPoisoned addr count hp =>
      simp only [Sharing.goto, SafeMmap.emitEvent, hheard, if_true]
      exact hsame rfl (by rw [hp]; rfl) (by rw [hp]; rfl)
  | timeout o l d offset len hp =>
      simp only [Sharing.goto, SafeMmap.emitEvent, hheard, if_true]
      exact hsame rfl (by rw [hp]; rfl) (by rw [hp]; rfl)
  | ret result hp =>
      have hdrop : total inflight (Function.update share.pc t .idle) +
          ((faultOf result).toList : Multiset Usize) = total inflight share.pc := by
        apply total_update_drop
        rw [hp]
        exact (zero_add _).symm
      have howed : sigbusOwed .idle = sigbusOwed (share.pc t) := by
        rw [hp]
        rfl
      simp only [Sharing.goto]
      rw [total_update_same howed, filterMap_snoc, ← Multiset.coe_add, add_assoc,
        add_comm (((faultOf result).toList : Multiset Usize)), hdrop]
      exact h.sigbus

/-- INTERNAL: every `PrefetchTimeout` belongs to a call that times out.
SOURCE: mmap/mod.rs:778-786 -/
theorem Books.timeouts_entry (h : Books max share) (hheard : share.mmap.onEvent = true)
    (hentry : Entry share t share') :
    share'.events.countP isTimeout =
      share'.returns.countP timedOut + total timeoutOwed share'.pc := by
  have hsame {c : CallPc} {e : List MmapEvent} (he : e.countP isTimeout = 0)
      (hc : timeoutOwed c = timeoutOwed (share.pc t)) :
      (share.events ++ e).countP isTimeout =
        share.returns.countP timedOut + total timeoutOwed (Function.update share.pc t c) := by
    rw [List.countP_append, he, total_update_same hc]
    exact h.timeouts
  cases hentry with
  | quiet mmap c hp hc hold hnew hflag =>
      have hsilent := hsame (c := c) (e := []) rfl (hnew.trans hold.symm)
      simpa [Sharing.goto] using hsilent
  | fault addr hp hold =>
      have hfault := hsame (c := .record (.sigbus addr)) (e := []) rfl hold.symm
      simpa [Sharing.goto] using hfault
  | record addr hp =>
      have hcount := hsame (c := .emitSigbus (.sigbus addr) (share.mmap.sigbusCount + 1))
        (e := []) rfl (by rw [hp]; rfl)
      simpa [Sharing.goto] using hcount
  | emitSigbus addr count hp =>
      simp only [Sharing.goto, SafeMmap.emitEvent, hheard, if_true]
      split
      · exact hsame rfl (by rw [hp]; rfl)
      · exact hsame rfl (by rw [hp]; rfl)
  | store addr count hp =>
      have hstore := hsame (c := .emitPoisoned (.sigbus addr) count) (e := []) rfl
        (by rw [hp]; rfl)
      simpa [Sharing.goto] using hstore
  | emitPoisoned addr count hp =>
      simp only [Sharing.goto, SafeMmap.emitEvent, hheard, if_true]
      exact hsame rfl (by rw [hp]; rfl)
  | timeout o l d offset len hp =>
      have hadd : total timeoutOwed
          (Function.update share.pc t (.ret (.error (.timeout o l d)))) =
            total timeoutOwed share.pc + 1 := by
        apply total_update_add
        rw [hp]
        rfl
      simp only [Sharing.goto, SafeMmap.emitEvent, hheard, if_true]
      rw [hadd, List.countP_append, h.timeouts]
      simp [isTimeout, add_assoc]
  | ret result hp =>
      have howed : timeoutOwed (.ret result) = (if timedOut result then 1 else 0) := by
        cases result with
        | ok u => rfl
        | error e => cases e <;> rfl
      have hdrop : total timeoutOwed (Function.update share.pc t .idle) +
          (if timedOut result then 1 else 0) = total timeoutOwed share.pc := by
        apply total_update_drop
        rw [hp, howed]
        exact (Nat.zero_add _).symm
      have hbooks := h.timeouts
      simp only [Sharing.goto, List.countP_append, List.countP_singleton]
      omega

/-- INTERNAL: every `Poisoned` event belongs to a `fetch_add` of its own.
SOURCE: mmap/mod.rs:1045-1060 -/
theorem Books.poisons_entry (h : Books max share) (hheard : share.mmap.onEvent = true)
    (hentry : Entry share t share') :
    share'.events.countP isPoisoned + total poisonOwed share'.pc ≤ share'.recorded := by
  have hbooks := h.poisons
  have hsame {c : CallPc} {e : List MmapEvent} (he : e.countP isPoisoned = 0)
      (hc : poisonOwed c = poisonOwed (share.pc t)) :
      (share.events ++ e).countP isPoisoned + total poisonOwed (Function.update share.pc t c) ≤
        share.recorded := by
    rw [List.countP_append, he, total_update_same hc]
    exact hbooks
  have hdrop (c : CallPc) (hp : poisonOwed (share.pc t) = 1) (hc : poisonOwed c = 0) :
      total poisonOwed (Function.update share.pc t c) + 1 = total poisonOwed share.pc := by
    apply total_update_drop
    rw [hp, hc]
  cases hentry with
  | quiet mmap c hp hc hold hnew hflag =>
      have hsilent := hsame (c := c) (e := []) rfl
        ((quiet_owes hc).2.1.trans (quiet_owes hp).2.1.symm)
      simpa [Sharing.goto] using hsilent
  | fault addr hp hold =>
      have hfault := hsame (c := .record (.sigbus addr)) (e := []) rfl (quiet_owes hp).2.1.symm
      simpa [Sharing.goto] using hfault
  | record addr hp =>
      have hadd : total poisonOwed (Function.update share.pc t
          (.emitSigbus (.sigbus addr) (share.mmap.sigbusCount + 1))) =
            total poisonOwed share.pc + 1 := by
        apply total_update_add
        rw [hp]
        rfl
      simp only [Sharing.goto]
      omega
  | emitSigbus addr count hp =>
      simp only [Sharing.goto, SafeMmap.emitEvent, hheard, if_true]
      split
      · exact hsame rfl (by rw [hp]; rfl)
      · have hless := hdrop (.ret (.error (.sigbus addr))) (by rw [hp]; rfl) rfl
        simp only [List.countP_append, List.countP_singleton, isPoisoned]
        simp only [Bool.false_eq_true, if_false]
        omega
  | store addr count hp =>
      have hstore := hsame (c := .emitPoisoned (.sigbus addr) count) (e := []) rfl
        (by rw [hp]; rfl)
      simpa [Sharing.goto] using hstore
  | emitPoisoned addr count hp =>
      have hless := hdrop (.ret (.error (.sigbus addr))) (by rw [hp]; rfl) rfl
      simp only [Sharing.goto, SafeMmap.emitEvent, hheard, if_true]
      simp only [List.countP_append, List.countP_singleton, isPoisoned, if_true]
      omega
  | timeout o l d offset len hp =>
      simp only [Sharing.goto, SafeMmap.emitEvent, hheard, if_true]
      exact hsame rfl (by rw [hp]; rfl)
  | ret result hp =>
      have hret := hsame (c := .idle) (e := []) rfl (by rw [hp]; rfl)
      simpa [Sharing.goto] using hret

omit [Fintype ι] in
/-- INTERNAL: what a step emits, and which threads may report a count after it.
SOURCE: mmap/mod.rs:1051-1060 -/
theorem entry_reports (hentry : Entry share t share') :
    (∀ count, .poisoned count ∈ share'.events →
      .poisoned count ∈ share.events ∨ reporting (share.pc t) = some count) ∧
    (∀ count, reporting (share'.pc t) = some count →
      reporting (share.pc t) = some count ∨ share.mmap.maxSigbus ≤ count) ∧
    ∀ u, u ≠ t → share'.pc u = share.pc u := by
  have hothers (c : CallPc) (u : ι) (hu : u ≠ t) :
      Function.update share.pc t c u = share.pc u := Function.update_of_ne hu _ _
  have hemit {event : MmapEvent} {count : UInt32}
      (hmem : .poisoned count ∈ share.events ++ share.mmap.emitEvent event) :
      .poisoned count ∈ share.events ∨ .poisoned count = event := by
    unfold SafeMmap.emitEvent at hmem
    split at hmem
    · simpa using hmem
    · exact Or.inl (by simpa using hmem)
  cases hentry with
  | quiet mmap c hp hc hold hnew hflag =>
      refine ⟨fun count hmem => Or.inl hmem, ?_, hothers _⟩
      intro count hcount
      simp [Sharing.goto, (quiet_owes hc).2.2] at hcount
  | fault addr hp hold =>
      refine ⟨fun count hmem => Or.inl hmem, ?_, hothers _⟩
      intro count hcount
      simp [Sharing.goto, reporting] at hcount
  | record addr hp =>
      refine ⟨fun count hmem => Or.inl hmem, ?_, hothers _⟩
      intro count hcount
      simp [Sharing.goto, reporting] at hcount
  | emitSigbus addr count hp =>
      refine ⟨?_, ?_, hothers _⟩
      · intro count' hmem
        rcases hemit hmem with hmem | heq
        · exact Or.inl hmem
        · cases heq
      · intro count' hcount
        by_cases hge : count ≥ share.mmap.maxSigbus
        · simp [Sharing.goto, hge, reporting] at hcount
          exact Or.inr (hcount ▸ hge)
        · simp [Sharing.goto, hge, reporting] at hcount
  | store addr count hp =>
      refine ⟨fun count hmem => Or.inl hmem, ?_, hothers _⟩
      intro count' hcount
      simp [Sharing.goto, reporting] at hcount
      exact Or.inl (by simp [hp, reporting, hcount])
  | emitPoisoned addr count hp =>
      refine ⟨?_, ?_, hothers _⟩
      · intro count' hmem
        rcases hemit hmem with hmem | heq
        · exact Or.inl hmem
        · cases heq
          exact Or.inr (by simp [hp, reporting])
      · intro count' hcount
        simp [Sharing.goto, reporting] at hcount
  | timeout o l d offset len hp =>
      refine ⟨?_, ?_, hothers _⟩
      · intro count hmem
        rcases hemit hmem with hmem | heq
        · exact Or.inl hmem
        · cases heq
      · intro count hcount
        simp [Sharing.goto, reporting] at hcount
  | ret result hp =>
      refine ⟨fun count hmem => Or.inl hmem, ?_, hothers _⟩
      intro count hcount
      simp [Sharing.goto, reporting] at hcount

/-- INTERNAL: a thread that has set the flag reports it.
SOURCE: mmap/mod.rs:1050-1060 -/
theorem Books.flagged_entry (h : Books max share) (hheard : share.mmap.onEvent = true)
    (hentry : Entry share t share') (hpoisoned : share'.mmap.poisoned = true) :
    (∃ count, .poisoned count ∈ share'.events) ∨
      ∃ u err count, share'.pc u = .emitPoisoned err count := by
  -- what has been reported, or is about to be by a thread that does not move now
  have hstill {c : CallPc} {e : List MmapEvent} (hold : share.mmap.poisoned = true)
      (hp : ∀ err count, share.pc t ≠ .emitPoisoned err count) :
      (∃ count, .poisoned count ∈ share.events ++ e) ∨
        ∃ u err count, Function.update share.pc t c u = .emitPoisoned err count := by
    rcases h.flagged hold with ⟨count, hmem⟩ | ⟨u, err, count, hu⟩
    · exact Or.inl ⟨count, List.mem_append_left _ hmem⟩
    · have hne : u ≠ t := by
        rintro rfl
        exact hp err count hu
      exact Or.inr ⟨u, err, count, by rw [Function.update_of_ne hne, hu]⟩
  have hquiet (hp : quietPc (share.pc t) = true) (err : AccessError) (count : UInt32) :
      share.pc t ≠ .emitPoisoned err count := by
    intro heq
    rw [heq] at hp
    cases hp
  cases hentry with
  | quiet mmap c hp hc hold hnew hflag =>
      have hkeep := hstill (c := c) (e := []) (hflag hpoisoned) (hquiet hp)
      simpa [Sharing.goto] using hkeep
  | fault addr hp hold =>
      have hkeep := hstill (c := .record (.sigbus addr)) (e := []) hpoisoned (hquiet hp)
      simpa [Sharing.goto] using hkeep
  | record addr hp =>
      have hkeep := hstill (c := .emitSigbus (.sigbus addr) (share.mmap.sigbusCount + 1))
        (e := []) hpoisoned (by simp [hp])
      simpa [Sharing.goto] using hkeep
  | emitSigbus addr count hp => exact hstill hpoisoned (by simp [hp])
  | store addr count hp =>
      refine Or.inr ⟨t, .sigbus addr, count, ?_⟩
      simp [Sharing.goto]
  | emitPoisoned addr count hp =>
      refine Or.inl ⟨count, ?_⟩
      simp [SafeMmap.emitEvent, hheard]
  | timeout o l d offset len hp => exact hstill hpoisoned (by simp [hp])
  | ret result hp =>
      have hkeep := hstill (c := .idle) (e := []) hpoisoned (by simp [hp])
      simpa [Sharing.goto] using hkeep

/-- INTERNAL: **every step keeps the books.** -/
theorem Books.entry (h : Books max share) (hheard : share.mmap.onEvent = true)
    (hmax : share.mmap.maxSigbus = max) (hentry : Entry share t share') : Books max share' where
  sigbus := h.sigbus_entry hheard hentry
  timeouts := h.timeouts_entry hheard hentry
  poisons := h.poisons_entry hheard hentry
  above := by
    intro count hmem
    rcases (entry_reports hentry).1 count hmem with hold | hown
    · exact h.above count hold
    · exact h.deciding t count hown
  deciding := by
    obtain ⟨-, hown, hothers⟩ := entry_reports hentry
    intro u count hu
    by_cases hut : u = t
    · subst hut
      rcases hown count hu with hold | hge
      · exact h.deciding u count hold
      · exact hmax ▸ hge
    · rw [hothers u hut] at hu
      exact h.deciding u count hu
  flagged := h.flagged_entry hheard hentry

/-- INTERNAL: a `fetch_add` belongs to a call that returns a SIGBUS, in a prefetch too. -/
theorem callsCounted_entry (h : CallsCounted share) (hentry : Entry share t share') :
    CallsCounted share' := by
  have hsame {c : CallPc} (hc : counted c = counted (share.pc t)) :
      share.recorded = (share.returns.filterMap faultOf).length +
        total counted (Function.update share.pc t c) := by
    rw [total_update_same hc]
    exact h
  cases hentry with
  | quiet mmap c hp hc hold hnew hflag =>
      exact hsame ((quietPc_zero hc mmap.maxSigbus).2.1.trans
        (quietPc_zero hp mmap.maxSigbus).2.1.symm)
  | fault addr hp hold => exact h.move (.fault addr hp)
  | record addr hp => exact h.move (.record addr hp)
  | emitSigbus addr count hp => exact h.move (.emitSigbus addr count hp)
  | store addr count hp => exact h.move (.store addr count hp)
  | emitPoisoned addr count hp => exact h.move (.emitPoisoned addr count hp)
  | timeout o l d offset len hp => exact hsame (by rw [hp]; rfl)
  | ret result hp => exact h.move (.ret result hp)

omit [Fintype ι] in
/-- INTERNAL: without a callback there is no event. -/
theorem entry_unheard (hheard : share.mmap.onEvent = false) (hentry : Entry share t share') :
    share'.events = share.events := by
  cases hentry <;> simp [Sharing.goto, SafeMmap.emitEvent, hheard]

/-! ## Runs -/

/-- What holds after every run. -/
structure Kept (mmap : SafeMmap) (s : Resetting ι) : Prop where
  steady : Steady mmap s
  calls : CallsCounted s.share
  heard : mmap.onEvent = true → Books mmap.maxSigbus s.share
  unheard : mmap.onEvent = false → s.share.events = []

omit [DecidableEq ι] in
/-- INTERNAL: the ledger is balanced when the mapping is opened.
SOURCE: mmap/mod.rs:397-405 -/
theorem kept_init (opts : SafeMmapOptions) (raw : RawMmap) :
    Kept (opts.finish raw) (Resetting.init ι (opts.finish raw)) where
  steady := steady_init ι _
  calls := (booked_init opts raw).calls
  heard := by
    intro _
    have htotal {M : Type} [AddCommMonoid M] (g : CallPc → M) (hg : g .idle = 0) :
        total g (fun _ : ι => CallPc.idle) = 0 := total_eq_zero fun _ => hg
    refine ⟨?_, ?_, ?_, ?_, ?_, ?_⟩
    · simp [Resetting.init, Sharing.init, htotal sigbusOwed rfl, htotal inflight rfl]
    · simp [Resetting.init, Sharing.init, htotal timeoutOwed rfl]
    · simp [Resetting.init, Sharing.init, htotal poisonOwed rfl]
    · simp [Resetting.init, Sharing.init]
    · simp [Resetting.init, Sharing.init, reporting]
    · simp [Resetting.init, Sharing.init, SafeMmapOptions.finish]
  unheard := fun _ => rfl

/-- INTERNAL: **every step of every thread keeps the ledger balanced.** -/
theorem Kept.step {mmap : SafeMmap} (a : ι × ResetAct) (s s' : Resetting ι) (h : Kept mmap s)
    (hstep : Resetting.step page a s = some s') : Kept mmap s' := by
  obtain ⟨t, act⟩ := a
  have hmove := step_move h.steady hstep
  have hentry := entry_of_move h.steady hmove
  refine ⟨h.steady.move hmove, callsCounted_entry h.calls hentry, ?_, ?_⟩
  · intro hheard
    exact (h.heard hheard).entry (h.steady.heard.trans hheard) h.steady.max hentry
  · intro hunheard
    rw [entry_unheard (h.steady.heard.trans hunheard) hentry]
    exact h.unheard hunheard

/-- RESULT: **the events of a mapping that is reset.** Any number of threads read, write, probe,
prefetch and reset one shared mapping in any interleaving, with any number of faults, and all
calls have returned. Then there was one `fetch_add` for each call that returned a SIGBUS. Without
a callback nothing was emitted. With one, the `Sigbus` events are those calls with their
addresses, there are as many `PrefetchTimeout` events as calls that returned a timeout, there are
at most as many `Poisoned` events as faults and each of them reports a count at or above the
threshold, and the mapping is poisoned only after one of them.
SOURCE: mmap/mod.rs:503-585, 668-686, 766-839, 1008-1061 -/
theorem reset_ledger (page : Usize) (opts : SafeMmapOptions) (raw : RawMmap)
    (acts : List (ι × ResetAct)) (s : Resetting ι)
    (h : run (Resetting.step page) acts (Resetting.init ι (opts.finish raw)) = some s)
    (hreturned : ∀ t, s.share.pc t = .idle) :
    s.share.recorded = (s.share.returns.filterMap faultOf).length ∧
    (opts.onEvent = false → s.share.events = []) ∧
    (opts.onEvent = true →
      (s.share.events.filterMap eventFault).Perm (s.share.returns.filterMap faultOf) ∧
      s.share.events.countP isTimeout = s.share.returns.countP timedOut ∧
      s.share.events.countP isPoisoned ≤ (s.share.returns.filterMap faultOf).length ∧
      (∀ count, .poisoned count ∈ s.share.events → opts.maxSigbus ≤ count) ∧
      (s.share.mmap.poisoned = true → ∃ count, .poisoned count ∈ s.share.events)) := by
  have hkept : Kept (opts.finish raw) s :=
    reach_invariant (Kept (opts.finish raw)) Kept.step acts (kept_init opts raw) h
  have hidle {M : Type} [AddCommMonoid M] (g : CallPc → M) (hg : g .idle = 0) :
      total g s.share.pc = 0 := by
    refine total_eq_zero fun t => ?_
    rw [hreturned t]
    exact hg
  have hrecorded : s.share.recorded = (s.share.returns.filterMap faultOf).length := by
    have hcalls : s.share.recorded = _ + total counted s.share.pc := hkept.calls
    rw [hidle counted rfl] at hcalls
    exact hcalls
  refine ⟨hrecorded, hkept.unheard, ?_⟩
  intro hheard
  have hbooks := hkept.heard hheard
  have hsigbus := hbooks.sigbus
  have htimeouts := hbooks.timeouts
  have hpoisons := hbooks.poisons
  rw [hidle sigbusOwed rfl, hidle inflight rfl, add_zero, add_zero] at hsigbus
  rw [hidle timeoutOwed rfl, add_zero] at htimeouts
  rw [hidle poisonOwed rfl, add_zero, hrecorded] at hpoisons
  refine ⟨Multiset.coe_eq_coe.mp hsigbus, htimeouts, hpoisons, hbooks.above, ?_⟩
  intro hpoisoned
  rcases hbooks.flagged hpoisoned with hreported | ⟨t, err, count, ht⟩
  · exact hreported
  · rw [hreturned t] at ht
    cases ht

/-- A threshold of one and a callback. -/
def strict : SafeMmapOptions := { SafeMmapOptions.new with maxSigbus := 1, onEvent := true }

/-- A read that faults and poisons the mapping, a reset by another thread, and a prefetch that
times out. -/
def faultResetTimeout : List (Bool × ResetAct) :=
  [(false, .share (.call (.read 0 1))), (false, .share .next), (false, .share .next),
    (false, .share (.touch (some 0x10000))), (false, .share .next), (false, .share .next),
    (false, .share .next), (true, .clear), (false, .share .next), (true, .zero),
    (false, .share .next), (true, .prefetch 0 1), (true, .next), (true, .next),
    (true, .result (.error (.timeout 0 1 5))), (true, .share .next)]

/-- The run `faultResetTimeout` is one of those that `reset_ledger` is about. -/
theorem reset_ledger_faultResetTimeout :
    ∃ s, run (Resetting.step 4096) faultResetTimeout
        (Resetting.init Bool (strict.finish ⟨0x10000, 4096, false⟩)) = some s ∧
      (∀ t, s.share.pc t = .idle) ∧ s.share.recorded = 1 ∧
      (s.share.events.filterMap eventFault).Perm [0x10000] ∧
      s.share.events.countP isTimeout = 1 := by
  have hidle (t : Bool) : (run (Resetting.step 4096) faultResetTimeout
      (Resetting.init Bool (strict.finish ⟨0x10000, 4096, false⟩))).map (fun s => s.share.pc t) =
        some .idle := by
    cases t <;> rfl
  have hreturns : (run (Resetting.step 4096) faultResetTimeout
      (Resetting.init Bool (strict.finish ⟨0x10000, 4096, false⟩))).map
        (fun s => (s.share.returns.filterMap faultOf, s.share.returns.countP timedOut)) =
          some ([0x10000], 1) := by
    decide +kernel
  cases hs : run (Resetting.step 4096) faultResetTimeout
      (Resetting.init Bool (strict.finish ⟨0x10000, 4096, false⟩)) with
  | none => simp [hs] at hreturns
  | some s =>
      simp only [hs, Option.map_some, Option.some.injEq, Prod.mk.injEq] at hidle hreturns
      obtain ⟨hrecorded, -, hevents⟩ := reset_ledger 4096 strict ⟨0x10000, 4096, false⟩
        faultResetTimeout s hs hidle
      obtain ⟨hsigbus, htimeouts, -⟩ := hevents rfl
      rw [hreturns.1] at hrecorded hsigbus
      rw [hreturns.2] at htimeouts
      exact ⟨s, rfl, hidle, hrecorded, hsigbus, htimeouts⟩

end Books

/-! ## A reset in a quiet moment -/

/-- The events, the results and the `fetch_add`s of `s` are put in front of those of `f`. -/
def afterPast (s f : Sharing ι) : Sharing ι :=
  { f with
    events := s.events ++ f.events
    returns := s.returns ++ f.returns
    recorded := s.recorded + f.recorded }

/-- The past of `s` is put in front of `f`. -/
def afterAll (s f : Resetting ι) : Resetting ι where
  share := afterPast s.share f.share
  long := f.long
  overflowed := s.overflowed || f.overflowed

/-- INTERNAL: no step of a call looks at the past. -/
theorem step_afterPast (share f : Sharing ι) (a : ι × ShareAct) :
    Sharing.step page a (afterPast share f) = (Sharing.step page a f).map (afterPast share) := by
  obtain ⟨t, act⟩ := a
  cases act with
  | call call => cases hp : f.pc t <;> simp [Sharing.step, hp, afterPast, Sharing.goto]
  | next =>
      cases hp : f.pc t with
      | check call =>
          cases hflag : f.mmap.poisoned <;>
            simp [Sharing.step, hp, afterPast, Sharing.goto, hflag]
      | _ => simp [Sharing.step, hp, afterPast, Sharing.goto, Nat.add_assoc]
  | touch fault => cases hp : f.pc t <;> simp [Sharing.step, hp, afterPast, Sharing.goto]

/-- INTERNAL: no step looks at the past. -/
theorem step_afterAll (s f : Resetting ι) (a : ι × ResetAct) :
    Resetting.step page a (afterAll s f) = (Resetting.step page a f).map (afterAll s) := by
  obtain ⟨t, act⟩ := a
  cases act with
  | share act =>
      cases hlong : f.long t with
      | away =>
          simp only [Resetting.step, hlong, afterAll, Resetting.shareStep]
          rw [step_afterPast]
          cases Sharing.step page (t, act) f.share with
          | none => rfl
          | some share => simp [afterAll, afterPast, Bool.or_assoc, Resetting.counts]
      | _ => simp [Resetting.step, hlong, afterAll]
  | prefetch offset len =>
      cases hlong : f.long t with
      | away =>
          cases hp : f.share.pc t <;>
            simp [Resetting.step, hlong, hp, afterAll, afterPast, Resetting.turn]
      | _ => simp [Resetting.step, hlong, afterAll]
  | next =>
      cases hlong : f.long t with
      | check offset len =>
          cases hflag : f.share.mmap.poisoned <;>
            simp [Resetting.step, hlong, afterAll, afterPast, Resetting.turn, Resetting.rejoin,
              Sharing.goto, hflag]
      | bounds offset len =>
          cases hcheck : f.share.mmap.checkBounds offset len <;>
            simp [Resetting.step, hlong, afterAll, afterPast, Resetting.turn, Resetting.rejoin,
              Sharing.goto, hcheck]
      | _ => simp [Resetting.step, hlong, afterAll]
  | result result =>
      cases hlong : f.long t with
      | prefetching offset len =>
          cases result with
          | ok u =>
              simp [Resetting.step, hlong, afterAll, afterPast, Resetting.resultStep,
                Resetting.rejoin, Resetting.turn, Sharing.goto]
          | error e =>
              cases e <;>
                simp [Resetting.step, hlong, afterAll, afterPast, Resetting.resultStep,
                  Resetting.rejoin, Resetting.turn, Sharing.goto]
      | _ => simp [Resetting.step, hlong, afterAll]
  | clear =>
      cases hlong : f.long t with
      | away =>
          cases hp : f.share.pc t <;>
            simp [Resetting.step, hlong, hp, afterAll, afterPast, Resetting.turn]
      | _ => simp [Resetting.step, hlong, afterAll]
  | zero =>
      cases hlong : f.long t with
      | zeroing => simp [Resetting.step, hlong, afterAll, afterPast, Resetting.turn]
      | _ => simp [Resetting.step, hlong, afterAll]

/-- INTERNAL: only the flag and the counter of a mapping change. -/
theorem fixed_move {mmap : SafeMmap} (h : Steady mmap s) (hmove : Move page s t s') :
    s'.share.mmap = { s.share.mmap with
      poisoned := s'.share.mmap.poisoned, sigbusCount := s'.share.mmap.sigbusCount } := by
  cases hmove with
  | share act share wrapped haway hstep =>
      cases share_move h.sane hstep <;> rfl
  | _ => rfl

/-- INTERNAL: the mapping is the one that was made, but for its flag and its counter. -/
theorem fixed_run {mmap : SafeMmap} (acts : List (ι × ResetAct))
    (h : run (Resetting.step page) acts (Resetting.init ι mmap) = some s) :
    s.share.mmap = { mmap with
      poisoned := s.share.mmap.poisoned, sigbusCount := s.share.mmap.sigbusCount } := by
  have hkeep (a : ι × ResetAct) (s s' : Resetting ι)
      (hs : Steady mmap s ∧ s.share.mmap = { mmap with
        poisoned := s.share.mmap.poisoned, sigbusCount := s.share.mmap.sigbusCount })
      (hstep : Resetting.step page a s = some s') :
      Steady mmap s' ∧ s'.share.mmap = { mmap with
        poisoned := s'.share.mmap.poisoned, sigbusCount := s'.share.mmap.sigbusCount } := by
    obtain ⟨t, act⟩ := a
    have hmove := step_move hs.1 hstep
    refine ⟨hs.1.move hmove, ?_⟩
    rw [fixed_move hs.1 hmove, hs.2]
  exact (reach_invariant _ hkeep acts ⟨steady_init ι mmap, rfl⟩ h).2

/-- RESULT: **a reset in a quiet moment makes the mapping as good as new.** After any run of any
number of threads, with any number of faults, that leaves no thread inside a call, a thread resets
the mapping. From then on every schedule does what it does on a mapping that has just been made:
the same steps are possible, the calls return the same results and emit the same events, after
those of before.
SOURCE: mmap/mod.rs:397-405, 1008-1011 -/
theorem reset_renews (page : Usize) (opts : SafeMmapOptions) (raw : RawMmap)
    (acts : List (ι × ResetAct)) (s : Resetting ι)
    (h : run (Resetting.step page) acts (Resetting.init ι (opts.finish raw)) = some s)
    (hreturned : ∀ t, s.share.pc t = .idle ∧ s.long t = .away) (t : ι)
    (more : List (ι × ResetAct)) :
    run (Resetting.step page) (acts ++ (t, .clear) :: (t, .zero) :: more)
        (Resetting.init ι (opts.finish raw)) =
      (run (Resetting.step page) more (Resetting.init ι (opts.finish raw))).map (afterAll s) := by
  have hpc : s.share.pc = fun _ => .idle := funext fun u => (hreturned u).1
  have hlong : s.long = fun _ => .away := funext fun u => (hreturned u).2
  have hafter : run (Resetting.step page) (acts ++ (t, .clear) :: (t, .zero) :: more)
      (Resetting.init ι (opts.finish raw)) =
        run (Resetting.step page) ((t, .clear) :: (t, .zero) :: more) s := by
    refine Option.ext fun u => ?_
    rw [run_append, h]
    simp
  have hreset : run (Resetting.step page) ((t, .clear) :: (t, .zero) :: more) s =
      run (Resetting.step page) more (afterAll s (Resetting.init ι (opts.finish raw))) := by
    have hfixed := fixed_run acts h
    have hmmap : { s.share.mmap with poisoned := false, sigbusCount := 0 } = opts.finish raw := by
      rw [hfixed]
      rfl
    have hturn : Function.update (Function.update s.long t .zeroing) t .away = s.long := by
      rw [Function.update_idem, ← (hreturned t).2, Function.update_eq_self]
    have hstate : (⟨{ s.share with mmap := opts.finish raw }, s.long, s.overflowed⟩ : Resetting ι) =
        afterAll s (Resetting.init ι (opts.finish raw)) := by
      simp [afterAll, afterPast, Resetting.init, Sharing.init, hpc, hlong]
    rw [← hstate]
    simp [run, Resetting.step, hreturned, Resetting.turn, hturn, hmmap]
  rw [hafter, hreset]
  exact run_map (afterAll s) (fun a f => step_afterAll s f a) more _

/-- A read of the page while it is gone. -/
def goneRead : List (Bool × ResetAct) :=
  [(false, .share (.call (.read 0 1))), (false, .share .next), (false, .share .next),
    (false, .share (.touch (some 0x10000))), (false, .share .next), (false, .share .next),
    (false, .share .next), (false, .share .next), (false, .share .next)]

/-- The first read poisons the mapping; after a reset the same read does what the first one
did. -/
theorem reset_renews_goneRead :
    ∃ s, run (Resetting.step 4096) goneRead
        (Resetting.init Bool (strict.finish ⟨0x10000, 4096, false⟩)) = some s ∧
      s.share.mmap.poisoned = true ∧ (∀ t, s.share.pc t = .idle ∧ s.long t = .away) ∧
      run (Resetting.step 4096) (goneRead ++ (true, .clear) :: (true, .zero) :: goneRead)
          (Resetting.init Bool (strict.finish ⟨0x10000, 4096, false⟩)) =
        some (afterAll s s) := by
  have hquiet (t : Bool) : (run (Resetting.step 4096) goneRead
      (Resetting.init Bool (strict.finish ⟨0x10000, 4096, false⟩))).map
        (fun s => (s.share.mmap.poisoned, s.share.pc t, s.long t)) =
          some (true, .idle, .away) := by
    cases t <;> rfl
  cases hs : run (Resetting.step 4096) goneRead
      (Resetting.init Bool (strict.finish ⟨0x10000, 4096, false⟩)) with
  | none => simpa [hs] using hquiet true
  | some s =>
      simp only [hs, Option.map_some, Option.some.injEq, Prod.mk.injEq] at hquiet
      refine ⟨s, rfl, (hquiet true).1, fun t => (hquiet t).2, ?_⟩
      rw [reset_renews 4096 strict ⟨0x10000, 4096, false⟩ goneRead s hs (fun t => (hquiet t).2)
        true goneRead, hs]
      rfl

end MmapShield.Analysis.Ledger
