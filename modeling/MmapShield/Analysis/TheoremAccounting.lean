import MmapShield.Computation.Machine
import MmapShield.Computation.Total
import MmapShield.Model.Sharing
import Mathlib.Algebra.Order.Group.Multiset

/-!
# The accounts of a shared mapping

Between a fault and the return of its call a thread owes the callback its events and the
caller its result. `pending`, `inflight` and `counted` say what a thread owes at each point
of its code, and the invariant `Accounts` is that with these debts the books balance: the
events are those of the faults and of the counts at or above the threshold, the counter is
the number of faults. When all calls have returned nothing is owed, which is
`fault_accounting`.

`Sharing.Move` lists what a step can do, given that only faults are recorded
(`Sane`): a probe hands every error to `record_sigbus_from`, but its reads are inside the
range that it has checked.
-/

set_option autoImplicit false

namespace MmapShield.Analysis

open MmapShield.Computation MmapShield.Model

variable {ι : Type} [DecidableEq ι] {s s' : Sharing ι} {t : ι}

/-- The address of a SIGBUS. -/
def errFault : AccessError → Option Usize
  | .sigbus faultAddress => some faultAddress
  | _ => none

/-- The address that a call returned in `AccessError::Sigbus`. -/
def faultOf : Except AccessError Unit → Option Usize
  | .error e => errFault e
  | .ok _ => none

/-- The thread has no fault to account for. -/
def quietPc : CallPc → Bool
  | .record _ | .emitSigbus _ _ | .store _ _ | .emitPoisoned _ _ => false
  | .ret result => (faultOf result).isNone
  | _ => true

/-- The fault of a call that has not returned. -/
def inflight : CallPc → Multiset Usize
  | .record err | .emitSigbus err _ | .store err _ | .emitPoisoned err _ =>
    ((errFault err).toList : Multiset Usize)
  | .ret result => ((faultOf result).toList : Multiset Usize)
  | _ => 0

/-- A fault that is in the counter while its call has not returned. -/
def counted : CallPc → ℕ
  | .emitSigbus _ _ | .store _ _ | .emitPoisoned _ _ => 1
  | .ret result => (faultOf result).toList.length
  | _ => 0

/-- The events that a thread has yet to emit. -/
def pending (max : UInt32) : CallPc → Multiset MmapEvent
  | .record err => {.sigbus (SafeMmap.faultAddressOf err)}
  | .emitSigbus err count =>
    {.sigbus (SafeMmap.faultAddressOf err)} + if count ≥ max then {.poisoned count} else 0
  | .store _ count | .emitPoisoned _ count => {.poisoned count}
  | _ => 0

/-- The thread is about to set the flag. -/
def willPoison (max : UInt32) : CallPc → Bool
  | .emitSigbus _ count => decide (count ≥ max)
  | .store _ _ => true
  | _ => false

/-- The counts from `max(1, max_sigbus)` up to `n`. -/
def poisonCounts (max : UInt32) (n : ℕ) : List ℕ :=
  (List.range (n + 1)).filter fun k => decide (1 ≤ k ∧ max.toNat ≤ k)

/-- A probe stays inside the mapping, and only a SIGBUS is recorded. -/
def PcSane (len : Usize) : CallPc → Prop
  | .probing _ stop => stop ≤ len
  | .record err | .emitSigbus err _ | .store err _ | .emitPoisoned err _ =>
    ∃ faultAddress, err = .sigbus faultAddress
  | _ => True

/-- Every thread is sane. -/
def Sane (s : Sharing ι) : Prop := ∀ t, PcSane s.mmap.raw.len (s.pc t)

/-! ## The moves -/

/-- What a step of the thread `t` can do. -/
inductive Sharing.Move (s : Sharing ι) (t : ι) : Sharing ι → Prop
  | silent (c : CallPc) (hp : quietPc (s.pc t) = true) (hc : quietPc c = true)
      (hsane : PcSane s.mmap.raw.len c) : Move s t (s.goto t c)
  | fault (addr : Usize) (hp : quietPc (s.pc t) = true) :
      Move s t (s.goto t (.record (.sigbus addr)))
  | record (addr : Usize) (hp : s.pc t = .record (.sigbus addr)) :
      Move s t { s.goto t (.emitSigbus (.sigbus addr) (s.mmap.sigbusCount + 1)) with
        mmap := { s.mmap with sigbusCount := s.mmap.sigbusCount + 1 }
        recorded := s.recorded + 1 }
  | emitSigbus (addr : Usize) (count : UInt32) (hp : s.pc t = .emitSigbus (.sigbus addr) count) :
      Move s t { s.goto t (if count ≥ s.mmap.maxSigbus then .store (.sigbus addr) count
          else .ret (.error (.sigbus addr))) with
        events := s.events ++ s.mmap.emitEvent (.sigbus addr) }
  | store (addr : Usize) (count : UInt32) (hp : s.pc t = .store (.sigbus addr) count) :
      Move s t { s.goto t (.emitPoisoned (.sigbus addr) count) with
        mmap := { s.mmap with poisoned := true } }
  | emitPoisoned (addr : Usize) (count : UInt32)
      (hp : s.pc t = .emitPoisoned (.sigbus addr) count) :
      Move s t { s.goto t (.ret (.error (.sigbus addr))) with
        events := s.events ++ s.mmap.emitEvent (.poisoned count) }
  | ret (result : Except AccessError Unit) (hp : s.pc t = .ret result) :
      Move s t { s.goto t .idle with returns := s.returns ++ [result] }

/-- INTERNAL: what a successful bounds check says, and that a failed one is no fault.
SOURCE: mmap/mod.rs:1022-1037 -/
theorem checkBounds_cases (mmap : SafeMmap) (offset len : Usize) :
    (mmap.checkBounds offset len = .ok () ∧ offset + len ≤ mmap.raw.len) ∨
      ∃ e, mmap.checkBounds offset len = .error e ∧ errFault e = none := by
  unfold SafeMmap.checkBounds checkedAdd
  split
  · exact Or.inr ⟨_, rfl, rfl⟩
  · rename_i stop hsome
    split at hsome
    · cases hsome
      split
      · exact Or.inr ⟨_, rfl, rfl⟩
      · rename_i hle
        exact Or.inl ⟨rfl, UInt64.not_lt.mp hle⟩
    · cases hsome

/-- INTERNAL: the checks end the call without a fault or let it go on inside the mapping.
SOURCE: mmap/guard.rs:99-108, mmap/mod.rs:556-565, 669-674, 817 -/
theorem boundsStep_quiet (mmap : SafeMmap) (call : CallKind) :
    quietPc (Sharing.boundsStep mmap call) = true ∧
      PcSane mmap.raw.len (Sharing.boundsStep mmap call) := by
  cases call with
  | read start stop =>
    simp only [Sharing.boundsStep]
    split
    · exact ⟨rfl, trivial⟩
    · exact ⟨rfl, trivial⟩
  | write offset len =>
    simp only [Sharing.boundsStep]
    rcases checkBounds_cases mmap offset len with ⟨hok, -⟩ | ⟨e, herr, hfault⟩
    · rw [hok]
      simp only
      split
      · exact ⟨rfl, trivial⟩
      · exact ⟨rfl, trivial⟩
    · rw [herr]
      simp [quietPc, faultOf, hfault, PcSane]
  | readInto offset len =>
    simp only [Sharing.boundsStep]
    rcases checkBounds_cases mmap offset len with ⟨hok, -⟩ | ⟨e, herr, hfault⟩
    · rw [hok]
      exact ⟨rfl, trivial⟩
    · rw [herr]
      simp [quietPc, faultOf, hfault, PcSane]
  | probe offset len =>
    simp only [Sharing.boundsStep]
    rcases checkBounds_cases mmap offset len with ⟨hok, hle⟩ | ⟨e, herr, hfault⟩
    · rw [hok]
      exact ⟨rfl, hle⟩
    · rw [herr]
      simp [quietPc, faultOf, hfault, PcSane]

/-- INTERNAL: the reads of a probe are inside the mapping, so the only error that it can
see is a SIGBUS.
SOURCE: mmap/mod.rs:676-685 -/
theorem probeStep_cases (page : Usize) (mmap : SafeMmap) (pos stop : Usize)
    (fault : Option Usize) (hstop : stop ≤ mmap.raw.len) :
    (quietPc (Sharing.probeStep page mmap pos stop fault) = true ∧
      PcSane mmap.raw.len (Sharing.probeStep page mmap pos stop fault)) ∨
    ∃ addr, Sharing.probeStep page mmap pos stop fault = .record (.sigbus addr) := by
  unfold Sharing.probeStep
  split
  · rename_i hlt
    have hbelow : pos.toNat + 1 ≤ mmap.raw.len.toNat := by
      rw [UInt64.lt_iff_toNat_lt] at hlt
      rw [UInt64.le_iff_toNat_le] at hstop
      omega
    have hlen := UInt64.toNat_lt mmap.raw.len
    have hone : (1 : UInt64).toNat = 1 := rfl
    have hadd : checkedAdd pos 1 = some (pos + 1) := by
      unfold checkedAdd
      rw [if_pos (by omega)]
    have hnext : (pos + 1).toNat = pos.toNat + 1 := by
      rw [UInt64.toNat_add]
      omega
    have hin : ¬ (pos + 1 > mmap.raw.len) := by
      rw [gt_iff_lt, UInt64.lt_iff_toNat_lt]
      omega
    rw [hadd]
    simp only [Option.elim_some, decide_eq_true_eq]
    rw [if_neg hin]
    cases fault with
    | none => exact Or.inl ⟨rfl, hstop⟩
    | some addr => exact Or.inr ⟨addr, rfl⟩
  · exact Or.inl ⟨rfl, trivial⟩

/-- INTERNAL: **what a step can do.**
SOURCE: mmap/mod.rs:503-585, 668-686, 815-839, 1013-1061 -/
theorem share_move {page : Usize} {act : ShareAct} (h : Sane s)
    (hstep : Sharing.step page (t, act) s = some s') : Sharing.Move s t s' := by
  have hsane := h t
  unfold Sharing.step at hstep
  dsimp only at hstep
  split at hstep
  · rename_i call hp
    cases hstep
    exact .silent _ (by rw [hp]; rfl) rfl trivial
  · rename_i call hp
    cases hstep
    cases s.mmap.poisoned with
    | true => exact .silent _ (by rw [hp]; rfl) rfl trivial
    | false => exact .silent _ (by rw [hp]; rfl) rfl trivial
  · rename_i hp
    cases hstep
    exact .silent _ (by rw [hp]; rfl) rfl trivial
  · rename_i call hp
    cases hstep
    obtain ⟨hquiet, hok⟩ := boundsStep_quiet s.mmap call
    exact .silent _ (by rw [hp]; rfl) hquiet hok
  · rename_i fault hp
    cases hstep
    cases fault with
    | none => exact .silent _ (by rw [hp]; rfl) rfl trivial
    | some addr => exact .fault addr (by rw [hp]; rfl)
  · rename_i fault pos stop hp
    cases hstep
    rw [hp] at hsane
    rcases probeStep_cases page s.mmap pos stop fault hsane with ⟨hquiet, hok⟩ | ⟨addr, hrec⟩
    · exact .silent _ (by rw [hp]; rfl) hquiet hok
    · rw [hrec]
      exact .fault addr (by rw [hp]; rfl)
  · rename_i err hp
    rw [hp] at hsane
    obtain ⟨addr, rfl⟩ := hsane
    cases hstep
    exact .record addr hp
  · rename_i err count hp
    rw [hp] at hsane
    obtain ⟨addr, rfl⟩ := hsane
    cases hstep
    exact .emitSigbus addr count hp
  · rename_i err count hp
    rw [hp] at hsane
    obtain ⟨addr, rfl⟩ := hsane
    cases hstep
    exact .store addr count hp
  · rename_i err count hp
    rw [hp] at hsane
    obtain ⟨addr, rfl⟩ := hsane
    cases hstep
    exact .emitPoisoned addr count hp
  · rename_i result hp
    cases hstep
    exact .ret result hp
  · cases hstep

/-- INTERNAL: every thread stays sane. -/
theorem Sane.move (h : Sane s) (hmove : Sharing.Move s t s') : Sane s' := by
  have hgoto (c : CallPc) (hc : PcSane s.mmap.raw.len c) (u : ι) :
      PcSane s.mmap.raw.len (Function.update s.pc t c u) := by
    by_cases hu : u = t
    · rw [hu, Function.update_self]
      exact hc
    · rw [Function.update_of_ne hu]
      exact h u
  cases hmove with
  | silent c hp hc hsane => exact hgoto c hsane
  | fault addr hp => exact hgoto _ ⟨addr, rfl⟩
  | record addr hp => exact hgoto _ ⟨addr, rfl⟩
  | emitSigbus addr count hp =>
    refine hgoto _ ?_
    split
    · exact ⟨addr, rfl⟩
    · trivial
  | store addr count hp => exact hgoto _ ⟨addr, rfl⟩
  | emitPoisoned addr count hp => exact hgoto _ trivial
  | ret result hp => exact hgoto _ trivial

/-! ## The accounts -/

variable [Fintype ι]

/-- The faults of the calls that have returned and of those that have not. -/
def faults (s : Sharing ι) : Multiset Usize :=
  (s.returns.filterMap faultOf : Multiset Usize) + total inflight s.pc

/-- The books of a shared mapping. -/
structure Accounts (s : Sharing ι) : Prop where
  count : s.mmap.sigbusCount.toNat = s.recorded
  events : s.mmap.onEvent = true →
    (s.events : Multiset MmapEvent) + total (pending s.mmap.maxSigbus) s.pc =
      (faults s).map MmapEvent.sigbus +
        ((poisonCounts s.mmap.maxSigbus s.recorded).map
          fun k => MmapEvent.poisoned (UInt32.ofNat k) : Multiset MmapEvent)
  unheard : s.mmap.onEvent = false → s.events = []
  flagged : s.mmap.poisoned = true → 1 ≤ s.recorded ∧ s.mmap.maxSigbus.toNat ≤ s.recorded
  covered : 1 ≤ s.recorded → s.mmap.maxSigbus.toNat ≤ s.recorded →
    s.mmap.poisoned = true ∨ ∃ t, willPoison s.mmap.maxSigbus (s.pc t) = true

/-- INTERNAL: one fault more reports one count more, from the threshold on. -/
theorem poisonCounts_succ (max : UInt32) (n : ℕ) :
    poisonCounts max (n + 1) =
      poisonCounts max n ++ if max.toNat ≤ n + 1 then [n + 1] else [] := by
  unfold poisonCounts
  rw [List.range_succ, List.filter_append]
  congr 1
  by_cases hmax : max.toNat ≤ n + 1
  · simp [hmax]
  · simp [hmax]

/-- INTERNAL: a thread without a fault owes nothing. -/
theorem quietPc_zero {c : CallPc} (h : quietPc c = true) (max : UInt32) :
    inflight c = 0 ∧ counted c = 0 ∧ pending max c = 0 ∧ willPoison max c = false := by
  cases c with
  | ret result =>
    have hnone : faultOf result = none := by simpa [quietPc] using h
    simp [inflight, counted, pending, willPoison, hnone]
  | record err => cases h
  | emitSigbus err count => cases h
  | store err count => cases h
  | emitPoisoned err count => cases h
  | _ => exact ⟨rfl, rfl, rfl, rfl⟩

omit [Fintype ι] in
/-- INTERNAL: a thread that is about to set the flag still is, unless it is the one that
moves. -/
theorem willPoison_other {max : UInt32} {c : CallPc}
    (h : ∃ u, willPoison max (s.pc u) = true) (ht : willPoison max (s.pc t) = false) :
    ∃ u, willPoison max (Function.update s.pc t c u) = true := by
  obtain ⟨u, hu⟩ := h
  have hne : u ≠ t := by
    rintro rfl
    rw [ht] at hu
    cases hu
  refine ⟨u, ?_⟩
  rw [Function.update_of_ne hne]
  exact hu

omit [DecidableEq ι] [Fintype ι] in
/-- INTERNAL: one return more is at most one fault more. -/
theorem filterMap_snoc (returns : List (Except AccessError Unit))
    (result : Except AccessError Unit) :
    (returns ++ [result]).filterMap faultOf =
      returns.filterMap faultOf ++ (faultOf result).toList := by
  rw [List.filterMap_append]
  cases hf : faultOf result <;> simp [hf]

/-- The `fetch_add`s are those of the calls that have returned a SIGBUS and of those that
are about to. -/
def CallsCounted (s : Sharing ι) : Prop :=
  s.recorded = (s.returns.filterMap faultOf).length + total counted s.pc

/-- INTERNAL: every `fetch_add` belongs to a call that returns a SIGBUS. -/
theorem CallsCounted.move (h : CallsCounted s) (hmove : Sharing.Move s t s') :
    CallsCounted s' := by
  -- a thread that moves on and stays as it is in the counter
  have hsame (c : CallPc) (hc : counted c = counted (s.pc t)) :
      s.recorded = (s.returns.filterMap faultOf).length +
        total counted (Function.update s.pc t c) := by
    rw [total_update_same hc]
    exact h
  cases hmove with
  | silent c hp hc hsane =>
    refine hsame c ?_
    rw [(quietPc_zero hp s.mmap.maxSigbus).2.1, (quietPc_zero hc s.mmap.maxSigbus).2.1]
  | fault addr hp =>
    refine hsame _ ?_
    rw [(quietPc_zero hp s.mmap.maxSigbus).2.1]
    rfl
  | record addr hp =>
    have htotal : total counted (Function.update s.pc t
        (.emitSigbus (.sigbus addr) (s.mmap.sigbusCount + 1))) = total counted s.pc + 1 := by
      apply total_update_add
      rw [hp]
      rfl
    show s.recorded + 1 = (s.returns.filterMap faultOf).length +
      total counted (Function.update s.pc t _)
    rw [htotal, show s.recorded = _ from h]
    rfl
  | emitSigbus addr count hp =>
    refine hsame _ ?_
    rw [hp]
    split <;> rfl
  | store addr count hp =>
    refine hsame _ ?_
    rw [hp]
    rfl
  | emitPoisoned addr count hp =>
    refine hsame _ ?_
    rw [hp]
    rfl
  | ret result hp =>
    have hcount : counted (s.pc t) = counted .idle + (faultOf result).toList.length := by
      rw [hp]
      exact (Nat.zero_add _).symm
    have hdrop := total_update_drop hcount
    have hcalls : s.recorded = (s.returns.filterMap faultOf).length + total counted s.pc := h
    show s.recorded = ((s.returns ++ [result]).filterMap faultOf).length +
      total counted (Function.update s.pc t .idle)
    rw [filterMap_snoc, List.length_append]
    omega

/-- INTERNAL: a silent step changes no account. -/
theorem Accounts.silent (h : Accounts s) {c : CallPc} (hp : quietPc (s.pc t) = true)
    (hc : quietPc c = true) : Accounts (s.goto t c) := by
  obtain ⟨hin, -, hpend, hwill⟩ := quietPc_zero hp s.mmap.maxSigbus
  obtain ⟨hin', -, hpend', -⟩ := quietPc_zero hc s.mmap.maxSigbus
  have hfaults : faults (s.goto t c) = faults s := by
    unfold faults
    rw [show total inflight (s.goto t c).pc = total inflight s.pc from
      total_update_same (hin'.trans hin.symm)]
    rfl
  refine ⟨h.count, ?_, h.unheard, h.flagged, ?_⟩
  · intro hon
    have htotal : total (pending s.mmap.maxSigbus) (s.goto t c).pc =
        total (pending s.mmap.maxSigbus) s.pc := total_update_same (hpend'.trans hpend.symm)
    show (s.events : Multiset MmapEvent) + total (pending s.mmap.maxSigbus) (s.goto t c).pc = _
    rw [hfaults, htotal]
    exact h.events hon
  · intro hone hmax
    rcases h.covered hone hmax with hpoisoned | hwilling
    · exact Or.inl hpoisoned
    · exact Or.inr (willPoison_other hwilling hwill)

/-- INTERNAL: a fault owes an event and a result. -/
theorem Accounts.fault (h : Accounts s) {addr : Usize} (hp : quietPc (s.pc t) = true) :
    Accounts (s.goto t (.record (.sigbus addr))) := by
  obtain ⟨hin, -, hpend, hwill⟩ := quietPc_zero hp s.mmap.maxSigbus
  have hfaults : faults (s.goto t (.record (.sigbus addr))) = faults s + {addr} := by
    have htotal : total inflight (s.goto t (.record (.sigbus addr))).pc =
        total inflight s.pc + {addr} := by
      apply total_update_add
      rw [hin, zero_add]
      rfl
    unfold faults
    rw [htotal, ← add_assoc]
    rfl
  refine ⟨h.count, ?_, h.unheard, h.flagged, ?_⟩
  · intro hon
    have htotal : total (pending s.mmap.maxSigbus) (s.goto t (.record (.sigbus addr))).pc =
        total (pending s.mmap.maxSigbus) s.pc + {.sigbus addr} := by
      apply total_update_add
      rw [hpend, zero_add]
      rfl
    show (s.events : Multiset MmapEvent) +
      total (pending s.mmap.maxSigbus) (s.goto t (.record (.sigbus addr))).pc = _
    rw [htotal, hfaults, ← add_assoc, h.events hon, Multiset.map_add, Multiset.map_singleton,
      add_right_comm]
    rfl
  · intro hone hmax
    rcases h.covered hone hmax with hpoisoned | hwilling
    · exact Or.inl hpoisoned
    · exact Or.inr (willPoison_other hwilling hwill)

/-- INTERNAL: the counter, and the event that a count at the threshold owes.
SOURCE: mmap/mod.rs:1045 -/
theorem Accounts.record (h : Accounts s) {addr : Usize} (hp : s.pc t = .record (.sigbus addr))
    (hfits : s.recorded + 1 < 2 ^ 32) :
    Accounts { s.goto t (.emitSigbus (.sigbus addr) (s.mmap.sigbusCount + 1)) with
      mmap := { s.mmap with sigbusCount := s.mmap.sigbusCount + 1 }
      recorded := s.recorded + 1 } := by
  have hcount := h.count
  have hsucc : (s.mmap.sigbusCount + 1).toNat = s.recorded + 1 := by
    rw [UInt32.toNat_add, hcount]
    exact Nat.mod_eq_of_lt hfits
  have hof : UInt32.ofNat (s.recorded + 1) = s.mmap.sigbusCount + 1 := by
    rw [← hsucc]
    exact UInt32.ofNat_toNat
  have hreach : s.mmap.sigbusCount + 1 ≥ s.mmap.maxSigbus ↔
      s.mmap.maxSigbus.toNat ≤ s.recorded + 1 := by
    rw [ge_iff_le, UInt32.le_iff_toNat_le, hsucc]
  refine ⟨hsucc, ?_, h.unheard, ?_, ?_⟩
  · intro hon
    let owed : Multiset MmapEvent :=
      if s.mmap.sigbusCount + 1 ≥ s.mmap.maxSigbus then
        {.poisoned (s.mmap.sigbusCount + 1)} else 0
    have htotal : total (pending s.mmap.maxSigbus)
        (s.goto t (.emitSigbus (.sigbus addr) (s.mmap.sigbusCount + 1))).pc =
        total (pending s.mmap.maxSigbus) s.pc + owed := by
      apply total_update_add
      rw [hp]
      rfl
    have hinflight : total inflight
        (s.goto t (.emitSigbus (.sigbus addr) (s.mmap.sigbusCount + 1))).pc =
        total inflight s.pc := by
      apply total_update_same
      rw [hp]
      rfl
    have howed : ((poisonCounts s.mmap.maxSigbus (s.recorded + 1)).map
        fun k => MmapEvent.poisoned (UInt32.ofNat k) : Multiset MmapEvent) =
        ((poisonCounts s.mmap.maxSigbus s.recorded).map
          fun k => MmapEvent.poisoned (UInt32.ofNat k) : Multiset MmapEvent) + owed := by
      rw [poisonCounts_succ]
      by_cases hmax : s.mmap.maxSigbus.toNat ≤ s.recorded + 1
      · simp only [owed, if_pos hmax, if_pos (hreach.mpr hmax), List.map_append,
          ← Multiset.coe_add, List.map_cons, List.map_nil, hof, Multiset.coe_singleton]
      · simp only [owed, if_neg hmax, if_neg (fun hge => hmax (hreach.mp hge)), List.append_nil,
          add_zero]
    show (s.events : Multiset MmapEvent) + total (pending s.mmap.maxSigbus) (s.goto t _).pc =
      Multiset.map MmapEvent.sigbus (_ + total inflight (s.goto t _).pc) + _
    rw [htotal, hinflight, howed, ← add_assoc, h.events hon, add_assoc]
    rfl
  · intro hpoisoned
    obtain ⟨hone, hmax⟩ := h.flagged hpoisoned
    exact ⟨Nat.le_succ_of_le hone, Nat.le_succ_of_le hmax⟩
  · intro _ hmax
    refine Or.inr ⟨t, ?_⟩
    show willPoison s.mmap.maxSigbus (Function.update s.pc t _ t) = true
    rw [Function.update_self]
    exact decide_eq_true (hreach.mpr hmax)

/-- INTERNAL: the books when one event is emitted that the thread owed, and the thread moves
on to `c` with the rest of its debts. -/
theorem Accounts.emit (h : Accounts s) {c : CallPc} {event : MmapEvent}
    (hin : inflight c = inflight (s.pc t))
    (hpend : pending s.mmap.maxSigbus (s.pc t) = pending s.mmap.maxSigbus c + {event})
    (hwill : willPoison s.mmap.maxSigbus (s.pc t) = true →
      willPoison s.mmap.maxSigbus c = true) :
    Accounts { s.goto t c with events := s.events ++ s.mmap.emitEvent event } := by
  refine ⟨h.count, ?_, ?_, h.flagged, ?_⟩
  · intro hon
    have hemit : s.mmap.emitEvent event = [event] := if_pos hon
    have htotal := total_update_drop hpend
    have hinflight := total_update_same hin
    show ((s.events ++ s.mmap.emitEvent event : List MmapEvent) : Multiset MmapEvent) +
      total (pending s.mmap.maxSigbus) (Function.update s.pc t c) =
      Multiset.map MmapEvent.sigbus (_ + total inflight (Function.update s.pc t c)) + _
    rw [hemit, ← Multiset.coe_add, Multiset.coe_singleton, hinflight, add_assoc,
      add_comm ({event} : Multiset MmapEvent), htotal]
    exact h.events hon
  · intro hoff
    have hoff' : s.mmap.onEvent = false := hoff
    have hemit : s.mmap.emitEvent event = [] := if_neg (by rw [hoff']; exact nofun)
    show s.events ++ s.mmap.emitEvent event = []
    rw [hemit, List.append_nil]
    exact h.unheard hoff
  · intro hone hmax
    rcases h.covered hone hmax with hpoisoned | ⟨u, hu⟩
    · exact Or.inl hpoisoned
    · refine Or.inr ⟨u, ?_⟩
      show willPoison s.mmap.maxSigbus (Function.update s.pc t c u) = true
      by_cases hut : u = t
      · rw [hut] at hu ⊢
        rw [Function.update_self]
        exact hwill hu
      · rw [Function.update_of_ne hut]
        exact hu

/-- INTERNAL: the books when the flag is set.
SOURCE: mmap/mod.rs:1050 -/
theorem Accounts.store (h : Accounts s) {addr : Usize} {count : UInt32}
    (hp : s.pc t = .store (.sigbus addr) count)
    (hreached : 1 ≤ s.recorded ∧ s.mmap.maxSigbus.toNat ≤ s.recorded) :
    Accounts { s.goto t (.emitPoisoned (.sigbus addr) count) with
      mmap := { s.mmap with poisoned := true } } := by
  have hin : inflight (.emitPoisoned (.sigbus addr) count) = inflight (s.pc t) := by
    rw [hp]
    rfl
  have hpend : pending s.mmap.maxSigbus (.emitPoisoned (.sigbus addr) count) =
      pending s.mmap.maxSigbus (s.pc t) := by
    rw [hp]
    rfl
  refine ⟨h.count, ?_, h.unheard, fun _ => hreached, fun _ _ => Or.inl rfl⟩
  · intro hon
    show (s.events : Multiset MmapEvent) +
      total (pending s.mmap.maxSigbus) (Function.update s.pc t _) =
      Multiset.map MmapEvent.sigbus (_ + total inflight (Function.update s.pc t _)) + _
    rw [total_update_same hpend, total_update_same hin]
    exact h.events hon

/-- INTERNAL: the books when a call returns. -/
theorem Accounts.ret (h : Accounts s) {result : Except AccessError Unit}
    (hp : s.pc t = .ret result) :
    Accounts { s.goto t .idle with returns := s.returns ++ [result] } := by
  have hreturns := filterMap_snoc s.returns result
  have hin : inflight (s.pc t) = inflight .idle + ((faultOf result).toList : Multiset Usize) := by
    rw [hp]
    exact (zero_add _).symm
  have hpend : pending s.mmap.maxSigbus .idle = pending s.mmap.maxSigbus (s.pc t) := by
    rw [hp]
    rfl
  refine ⟨h.count, ?_, h.unheard, h.flagged, ?_⟩
  · intro hon
    have hdrop := total_update_drop hin
    show (s.events : Multiset MmapEvent) +
      total (pending s.mmap.maxSigbus) (Function.update s.pc t .idle) =
      Multiset.map MmapEvent.sigbus
        (((s.returns ++ [result]).filterMap faultOf : Multiset Usize) +
          total inflight (Function.update s.pc t .idle)) + _
    rw [total_update_same hpend, hreturns, ← Multiset.coe_add, add_assoc,
      add_comm ((faultOf result).toList : Multiset Usize), hdrop]
    exact h.events hon
  · intro hone hmax
    rcases h.covered hone hmax with hpoisoned | hwilling
    · exact Or.inl hpoisoned
    · refine Or.inr (willPoison_other hwilling ?_)
      rw [hp]
      rfl

/-- What is known of the thread that is about to set the flag: its count has reached the
threshold. -/
def Reached (s : Sharing ι) : Prop :=
  ∀ t, willPoison s.mmap.maxSigbus (s.pc t) = true →
    1 ≤ s.recorded ∧ s.mmap.maxSigbus.toNat ≤ s.recorded

/-- INTERNAL: **every step keeps the books**, as long as the counter does not wrap. -/
theorem Accounts.move (h : Accounts s) (hreached : Reached s) (hmove : Sharing.Move s t s')
    (hfits : s'.recorded < 2 ^ 32) : Accounts s' := by
  cases hmove with
  | silent c hp hc hsane => exact h.silent hp hc
  | fault addr hp => exact h.fault hp
  | record addr hp => exact h.record hp hfits
  | emitSigbus addr count hp =>
    by_cases hge : count ≥ s.mmap.maxSigbus
    · rw [if_pos hge]
      refine h.emit ?_ ?_ (fun _ => rfl)
      · rw [hp]
        rfl
      · rw [hp]
        simp only [pending, if_pos hge]
        exact add_comm _ _
    · rw [if_neg hge]
      refine h.emit ?_ ?_ ?_
      · rw [hp]
        rfl
      · rw [hp]
        simp only [pending, if_neg hge]
        exact add_comm _ _
      · intro hwill
        rw [hp] at hwill
        exact absurd (of_decide_eq_true hwill) hge
  | store addr count hp =>
    refine h.store hp (hreached t ?_)
    rw [hp]
    rfl
  | emitPoisoned addr count hp =>
    refine h.emit ?_ ?_ ?_
    · rw [hp]
      rfl
    · rw [hp]
      exact (zero_add _).symm
    · intro hwill
      rw [hp] at hwill
      cases hwill
  | ret result hp => exact h.ret hp

omit [Fintype ι] in
/-- INTERNAL: a thread is about to set the flag only when the threshold is reached. -/
theorem Reached.move (h : Reached s) (hcount : s.mmap.sigbusCount.toNat = s.recorded)
    (hmove : Sharing.Move s t s') (hfits : s'.recorded < 2 ^ 32) : Reached s' := by
  -- a thread other than `t`, or one that was about to set the flag before
  have hgoto (c : CallPc) (hc : willPoison s.mmap.maxSigbus c = true →
      1 ≤ s.recorded ∧ s.mmap.maxSigbus.toNat ≤ s.recorded) (u : ι)
      (hu : willPoison s.mmap.maxSigbus (Function.update s.pc t c u) = true) :
      1 ≤ s.recorded ∧ s.mmap.maxSigbus.toNat ≤ s.recorded := by
    by_cases hut : u = t
    · rw [hut, Function.update_self] at hu
      exact hc hu
    · rw [Function.update_of_ne hut] at hu
      exact h u hu
  cases hmove with
  | silent c hp hc hsane =>
    refine hgoto c ?_
    intro hwill
    rw [(quietPc_zero hc s.mmap.maxSigbus).2.2.2] at hwill
    cases hwill
  | fault addr hp => exact hgoto _ nofun
  | record addr hp =>
    have hfits' : s.recorded + 1 < 2 ^ 32 := hfits
    have hsucc : (s.mmap.sigbusCount + 1).toNat = s.recorded + 1 := by
      rw [UInt32.toNat_add, hcount]
      exact Nat.mod_eq_of_lt hfits'
    intro u hu
    show 1 ≤ s.recorded + 1 ∧ s.mmap.maxSigbus.toNat ≤ s.recorded + 1
    have hu' : willPoison s.mmap.maxSigbus (Function.update s.pc t
      (.emitSigbus (.sigbus addr) (s.mmap.sigbusCount + 1)) u) = true := hu
    by_cases hut : u = t
    · rw [hut, Function.update_self] at hu'
      have hge : s.mmap.maxSigbus ≤ s.mmap.sigbusCount + 1 := of_decide_eq_true hu'
      rw [UInt32.le_iff_toNat_le, hsucc] at hge
      omega
    · rw [Function.update_of_ne hut] at hu'
      have hold := h u hu'
      omega
  | emitSigbus addr count hp =>
    refine hgoto _ ?_
    intro hwill
    refine h t ?_
    rw [hp]
    by_cases hge : count ≥ s.mmap.maxSigbus
    · exact decide_eq_true hge
    · rw [if_neg hge] at hwill
      cases hwill
  | store addr count hp => exact hgoto _ nofun
  | emitPoisoned addr count hp => exact hgoto _ nofun
  | ret result hp => exact hgoto _ nofun

/-! ## Runs -/

/-- What holds after every run, the accounts as long as the counter has not wrapped. -/
structure Booked (mmap : SafeMmap) (s : Sharing ι) : Prop where
  sane : Sane s
  fixed : s.mmap.maxSigbus = mmap.maxSigbus ∧ s.mmap.onEvent = mmap.onEvent
  calls : CallsCounted s
  accounts : s.recorded < 2 ^ 32 → Accounts s ∧ Reached s

omit [DecidableEq ι] in
/-- INTERNAL: a mapping that has just been opened has nothing in its books.
SOURCE: mmap/mod.rs:397-405 -/
theorem booked_init (opts : SafeMmapOptions) (raw : RawMmap) :
    Booked (opts.finish raw) (Sharing.init ι (opts.finish raw)) where
  sane := fun t => trivial
  fixed := ⟨rfl, rfl⟩
  calls := by
    have hcounted : total counted (fun _ : ι => CallPc.idle) = 0 := total_eq_zero fun _ => rfl
    show 0 = 0 + total counted (fun _ : ι => CallPc.idle)
    rw [hcounted]
  accounts := by
    intro _
    have hinflight : total inflight (fun _ : ι => CallPc.idle) = 0 := total_eq_zero fun _ => rfl
    have hpending : total (pending opts.maxSigbus) (fun _ : ι => CallPc.idle) = 0 :=
      total_eq_zero fun _ => rfl
    refine ⟨⟨rfl, ?_, fun _ => rfl, ?_, ?_⟩, ?_⟩
    · intro _
      show 0 + total (pending opts.maxSigbus) (fun _ : ι => CallPc.idle) =
        Multiset.map MmapEvent.sigbus (0 + total inflight (fun _ : ι => CallPc.idle)) + _
      rw [hpending, hinflight]
      simp [poisonCounts, Sharing.init]
    · rintro ⟨⟩
    · rintro ⟨⟩
    · rintro t ⟨⟩

/-- INTERNAL: **every step of every thread keeps the books.** -/
theorem Booked.step {page : Usize} {mmap : SafeMmap} (a : ι × ShareAct) (s s' : Sharing ι)
    (h : Booked mmap s) (hstep : Sharing.step page a s = some s') : Booked mmap s' := by
  obtain ⟨t, act⟩ := a
  have hmove := share_move h.sane hstep
  have hfixed : s'.mmap.maxSigbus = s.mmap.maxSigbus ∧ s'.mmap.onEvent = s.mmap.onEvent ∧
      s.recorded ≤ s'.recorded := by
    cases hmove with
    | record addr hp => exact ⟨rfl, rfl, Nat.le_succ _⟩
    | _ => exact ⟨rfl, rfl, Nat.le_refl _⟩
  refine ⟨h.sane.move hmove, ⟨hfixed.1.trans h.fixed.1, hfixed.2.1.trans h.fixed.2⟩,
    h.calls.move hmove, ?_⟩
  intro hfits
  obtain ⟨haccounts, hreached⟩ := h.accounts (by omega)
  exact ⟨haccounts.move hreached hmove hfits, hreached.move haccounts.count hmove hfits⟩

/-- RESULT: **the accounts of a shared mapping.** Any number of threads call `read`, `write`,
`read_into` and `probe` in any interleaving, and when all calls have returned there were
fewer than `2 ^ 32` faults. Then the counter is the number of calls that returned a SIGBUS,
the events are one `Sigbus` for each of them with its address and one `Poisoned` for each
count from `max(1, max_sigbus)` up to the counter (none at all without a callback), and
the mapping is poisoned exactly when there was a fault and the counter has reached the
threshold.
SOURCE: mmap/mod.rs:503-585, 668-686, 815-839, 1013-1061 -/
theorem fault_accounting (page : Usize) (opts : SafeMmapOptions) (raw : RawMmap)
    (acts : List (ι × ShareAct)) (s : Sharing ι)
    (h : run (Sharing.step page) acts (Sharing.init ι (opts.finish raw)) = some s)
    (hreturned : ∀ t, s.pc t = .idle)
    (hfew : (s.returns.filterMap faultOf).length < 2 ^ 32) :
    s.mmap.sigbusCount.toNat = (s.returns.filterMap faultOf).length ∧
    s.events.Perm (if opts.onEvent then
        (s.returns.filterMap faultOf).map MmapEvent.sigbus ++
          (poisonCounts opts.maxSigbus s.mmap.sigbusCount.toNat).map
            (fun k => MmapEvent.poisoned (UInt32.ofNat k))
      else []) ∧
    (s.mmap.poisoned = true ↔
      0 < (s.returns.filterMap faultOf).length ∧ opts.maxSigbus ≤ s.mmap.sigbusCount) := by
  have hbooked : Booked (opts.finish raw) s :=
    reach_invariant (Booked (opts.finish raw)) Booked.step acts (booked_init opts raw) h
  have hidle {M : Type} [AddCommMonoid M] (g : CallPc → M) (hg : g .idle = 0) :
      total g s.pc = 0 := by
    refine total_eq_zero fun t => ?_
    rw [hreturned t]
    exact hg
  have hrecorded : s.recorded = (s.returns.filterMap faultOf).length := by
    have hcalls : s.recorded = _ + total counted s.pc := hbooked.calls
    rw [hidle counted rfl] at hcalls
    exact hcalls
  obtain ⟨haccounts, -⟩ := hbooked.accounts (by omega)
  have hmax : s.mmap.maxSigbus = opts.maxSigbus := hbooked.fixed.1
  have hevent : s.mmap.onEvent = opts.onEvent := hbooked.fixed.2
  have hcount := haccounts.count
  refine ⟨hcount.trans hrecorded, ?_, ?_⟩
  · cases hon : opts.onEvent with
    | false =>
      rw [haccounts.unheard (hevent.trans hon)]
      exact List.Perm.refl _
    | true =>
      have hbalance := haccounts.events (hevent.trans hon)
      rw [hidle (pending s.mmap.maxSigbus) rfl, add_zero, hmax] at hbalance
      unfold faults at hbalance
      rw [hidle inflight rfl, add_zero, Multiset.map_coe, Multiset.coe_add, ← hcount] at hbalance
      exact Multiset.coe_eq_coe.mp hbalance
  · rw [UInt32.le_iff_toNat_le, hcount, ← hmax, ← hrecorded]
    refine ⟨haccounts.flagged, ?_⟩
    rintro ⟨hone, hreach⟩
    rcases haccounts.covered hone hreach with hp | ⟨t, ht⟩
    · exact hp
    · rw [hreturned t] at ht
      cases ht

/-- Two threads read the page while it is gone; the second one passes the gate before the
first one has set the flag. -/
def twoFaults : List (Bool × ShareAct) :=
  [(false, .call (.read 0 1)), (true, .call (.probe 0 1)), (false, .next), (true, .next),
    (false, .next), (true, .next), (false, .touch (some 0x10000)), (false, .next),
    (true, .touch (some 0x10000)), (false, .next), (true, .next), (false, .next), (true, .next),
    (false, .next), (true, .next), (false, .next), (true, .next), (true, .next)]

/-- The mapping of `twoFaults`. -/
def heard : SafeMmapOptions := { SafeMmapOptions.new with maxSigbus := 1, onEvent := true }

/-- The run `twoFaults` is one of those that `fault_accounting` is about: both faults are
counted, and both counts are at the threshold. -/
theorem fault_accounting_twoFaults :
    ∃ s, run (Sharing.step 4096) twoFaults
        (Sharing.init (Bool) (heard.finish ⟨0x10000, 4096, false⟩)) = some s ∧
      (∀ t, s.pc t = .idle) ∧ s.mmap.sigbusCount.toNat = 2 ∧
      s.events.Perm [.sigbus 0x10000, .sigbus 0x10000, .poisoned 1, .poisoned 2] := by
  have hidle (t : Bool) : (run (Sharing.step 4096) twoFaults
      (Sharing.init (Bool) (heard.finish ⟨0x10000, 4096, false⟩))).map (fun s => s.pc t) =
        some .idle := by
    cases t <;> rfl
  have hfaults : (run (Sharing.step 4096) twoFaults
      (Sharing.init (Bool) (heard.finish ⟨0x10000, 4096, false⟩))).map
        (fun s => s.returns.filterMap faultOf) = some [0x10000, 0x10000] := by
    decide +kernel
  cases hs : run (Sharing.step 4096) twoFaults
      (Sharing.init (Bool) (heard.finish ⟨0x10000, 4096, false⟩)) with
  | none => simp [hs] at hfaults
  | some s =>
    simp only [hs, Option.map_some, Option.some.injEq] at hidle hfaults
    obtain ⟨hcount, hevents, -⟩ := fault_accounting 4096 heard ⟨0x10000, 4096, false⟩ twoFaults
      s hs hidle (by rw [hfaults]; decide)
    rw [hfaults] at hcount hevents
    rw [hcount] at hevents
    exact ⟨s, rfl, hidle, hcount, hevents⟩

end MmapShield.Analysis
