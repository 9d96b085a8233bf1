import MmapShield.Analysis.ProbeLoop
import MmapShield.Computation.Simulation
import MmapShield.Model.Resetting

/-!
# Calls one after the other

Two models of the accessors of a mapping: `Access.outcome` says what a call does as a whole, with
the memory that it meets, and `Resetting.step` cuts the calls at every access to the two atomics.
The second one contains the first (`serial_calls`): calls that threads make one after the other,
while other threads may be held up anywhere inside calls of their own, do in the cut calls what
they do as a whole, with the same results and the same events.

`At` says where a thread is in its call and what has come out of it so far; the lemmas of a call
go from its end to its beginning.
-/

set_option autoImplicit false

namespace MmapShield.Analysis.Serial

open MmapShield.Computation MmapShield.Model

variable {ι : Type} [DecidableEq ι] {ρ : Type} {s u : Resetting ι} {t : ι} {page : Usize}

/-- The call leaves a result in the log of the threads; a reset returns nothing, and the guards
take no part in the cut calls. -/
def logs : Access ρ → Bool
  | .guard | .guardRead _ _ _ _ _ | .resetPoison => false
  | _ => true

/-- A session with the events that have been emitted and the results of the calls. -/
structure Logged where
  session : Session
  events : List MmapEvent
  returns : List (Except AccessError Unit)

/-- One operation of a session, as a whole. -/
def Logged.step (page : Usize) (op : Access ρ) (l : Logged) : Option Logged :=
  (op.outcome page l.session).map fun o =>
    { session :=
        { mmap := o.mmap
          guards := if op.makesGuard then l.session.guards + 1 else l.session.guards }
      events := l.events ++ o.events
      returns := l.returns ++ if logs op then [o.result] else [] }

/-- Since `s` only the thread `t` has moved: it is at `c` and `d`, and this is the mapping and what
has come out of the thread. -/
structure At (s : Resetting ι) (t : ι) (c : CallPc) (d : LongPc) (mmap : SafeMmap)
    (events : List MmapEvent) (returns : List (Except AccessError Unit)) (u : Resetting ι) :
    Prop where
  mmap : u.share.mmap = mmap
  pc : u.share.pc = Function.update s.share.pc t c
  long : u.long = Function.update s.long t d
  events : u.share.events = s.share.events ++ events
  returns : u.share.returns = s.share.returns ++ returns

/-- The thread can get from `u` to the end of its call, with this outcome. -/
def Finishes (page : Usize) (s : Resetting ι) (t : ι) (u : Resetting ι) (mmap : SafeMmap)
    (events : List MmapEvent) (returns : List (Except AccessError Unit)) : Prop :=
  ∃ v, Leads (Resetting.step page) (fun a => a.1 = t) u v ∧
    At s t .idle .away mmap events returns v

variable {c c' : CallPc} {d : LongPc} {m m' : SafeMmap} {e : List MmapEvent}
  {r : List (Except AccessError Unit)}

/-- INTERNAL: a call that finishes after a step of its own finishes. -/
theorem Finishes.head {act : ResetAct} {v : Resetting ι} {events : List MmapEvent}
    {returns : List (Except AccessError Unit)} (hstep : Resetting.step page (t, act) u = some v)
    (h : Finishes page s t v m events returns) : Finishes page s t u m events returns := by
  obtain ⟨w, hw, hat⟩ := h
  exact ⟨w, .head rfl hstep hw, hat⟩

/-! ## Steps of the calls of `Sharing` -/

/-- INTERNAL: a step of a call that `Sharing` knows. -/
theorem At.share {act : ShareAct} {e' : List MmapEvent} {r' : List (Except AccessError Unit)}
    (h : At s t c .away m e r u)
    (hstep : ∀ x : Sharing ι, x.pc t = c → x.mmap = m → ∃ n, Sharing.step page (t, act) x =
      some ⟨m', Function.update x.pc t c', x.events ++ e', x.returns ++ r', n⟩) :
    ∃ v, Resetting.step page (t, .share act) u = some v ∧
      At s t c' .away m' (e ++ e') (r ++ r') v := by
  have hpc : u.share.pc t = c := by
    rw [h.pc, Function.update_self]
  have haway : u.long t = .away := by
    rw [h.long, Function.update_self]
  obtain ⟨n, hshare⟩ := hstep u.share hpc h.mmap
  refine ⟨⟨⟨m', Function.update u.share.pc t c', u.share.events ++ e', u.share.returns ++ r', n⟩,
    u.long, u.overflowed ||
      (u.counts t act && decide (2 ^ 32 ≤ u.share.mmap.sigbusCount.toNat + 1))⟩, ?_,
    ⟨rfl, ?_, h.long, ?_, ?_⟩⟩
  · simp only [Resetting.step, haway, Resetting.shareStep, hshare, Option.map_some]
  · rw [h.pc, Function.update_idem]
  · rw [h.events, List.append_assoc]
  · rw [h.returns, List.append_assoc]

/-- INTERNAL: a step that emits and returns nothing. -/
theorem At.quiet {act : ShareAct} (h : At s t c .away m e r u)
    (hstep : ∀ x : Sharing ι, x.pc t = c → x.mmap = m →
      ∃ n, Sharing.step page (t, act) x =
        some ⟨m', Function.update x.pc t c', x.events, x.returns, n⟩) :
    ∃ v, Resetting.step page (t, .share act) u = some v ∧ At s t c' .away m' e r v := by
  have hsame (x : Sharing ι) (hpc : x.pc t = c) (hmmap : x.mmap = m) :
      ∃ n, Sharing.step page (t, act) x =
        some ⟨m', Function.update x.pc t c', x.events ++ [], x.returns ++ [], n⟩ := by
    simpa using hstep x hpc hmmap
  simpa using h.share hsame

/-- INTERNAL: the end of a call.
SOURCE: mmap/mod.rs:503-585, 668-686, 815-839 -/
theorem At.ret {result : Except AccessError Unit} (h : At s t (.ret result) .away m e r u) :
    Finishes page s t u m e (r ++ [result]) := by
  have hstep (x : Sharing ι) (hpc : x.pc t = .ret result) (hmmap : x.mmap = m) :
      ∃ n, Sharing.step page (t, .next) x =
        some ⟨m, Function.update x.pc t .idle, x.events ++ [], x.returns ++ [result], n⟩ :=
    ⟨x.recorded, by simp [Sharing.step, hpc, Sharing.goto, hmmap]⟩
  obtain ⟨v, hv, hat⟩ := h.share hstep
  rw [List.append_nil] at hat
  exact .head hv ⟨v, .refl v, hat⟩

/-- INTERNAL: the report of a SIGBUS.
SOURCE: mmap/mod.rs:1047-1053 -/
theorem At.emitSigbus {err : AccessError} {count : UInt32} (page : Usize)
    (h : At s t (.emitSigbus err count) .away m e r u) :
    ∃ v, Resetting.step page (t, .share .next) u = some v ∧
      At s t (if count ≥ m.maxSigbus then .store err count else .ret (.error err)) .away m
        (e ++ m.emitEvent (.sigbus (SafeMmap.faultAddressOf err))) r v := by
  have hstep (x : Sharing ι) (hpc : x.pc t = .emitSigbus err count) (hmmap : x.mmap = m) :
      ∃ n, Sharing.step page (t, .next) x =
        some ⟨m, Function.update x.pc t
            (if count ≥ m.maxSigbus then .store err count else .ret (.error err)),
          x.events ++ m.emitEvent (.sigbus (SafeMmap.faultAddressOf err)), x.returns ++ [], n⟩ :=
    ⟨x.recorded, by simp [Sharing.step, hpc, Sharing.goto, hmmap]⟩
  obtain ⟨v, hv, hat⟩ := h.share hstep
  rw [List.append_nil] at hat
  exact ⟨v, hv, hat⟩

/-- INTERNAL: the flag and its report.
SOURCE: mmap/mod.rs:1050-1054 -/
theorem At.store {err : AccessError} {count : UInt32}
    (h : At s t (.store err count) .away m e r u) :
    Finishes page s t u { m with poisoned := true } (e ++ m.emitEvent (.poisoned count))
      (r ++ [.error err]) := by
  have hstore (x : Sharing ι) (hpc : x.pc t = .store err count) (hmmap : x.mmap = m) :
      ∃ n, Sharing.step page (t, .next) x =
        some ⟨{ m with poisoned := true }, Function.update x.pc t (.emitPoisoned err count),
          x.events, x.returns, n⟩ :=
    ⟨x.recorded, by simp [Sharing.step, hpc, Sharing.goto, hmmap]⟩
  have hemit (x : Sharing ι) (hpc : x.pc t = .emitPoisoned err count)
      (hmmap : x.mmap = { m with poisoned := true }) :
      ∃ n, Sharing.step page (t, .next) x =
        some ⟨{ m with poisoned := true }, Function.update x.pc t (.ret (.error err)),
          x.events ++ m.emitEvent (.poisoned count), x.returns ++ [], n⟩ :=
    ⟨x.recorded, by simp [Sharing.step, hpc, Sharing.goto, hmmap, SafeMmap.emitEvent]⟩
  obtain ⟨v, hv, hat⟩ := h.quiet hstore
  obtain ⟨w, hw, hat⟩ := hat.share hemit
  rw [List.append_nil] at hat
  exact .head hv (.head hw hat.ret)

/-- INTERNAL: `record_sigbus_from` as a whole, and the return after it.
SOURCE: mmap/mod.rs:1039-1061 -/
theorem At.record {err : AccessError} (h : At s t (.record err) .away m e r u) :
    Finishes page s t u (m.recordSigbusFrom err).1 (e ++ (m.recordSigbusFrom err).2)
      (r ++ [.error err]) := by
  have hadd (x : Sharing ι) (hpc : x.pc t = .record err) (hmmap : x.mmap = m) :
      ∃ n, Sharing.step page (t, .next) x =
        some ⟨{ m with sigbusCount := m.sigbusCount + 1 },
          Function.update x.pc t (.emitSigbus err (m.sigbusCount + 1)), x.events, x.returns, n⟩ :=
    ⟨x.recorded + 1, by simp [Sharing.step, hpc, Sharing.goto, hmmap]⟩
  obtain ⟨v, hv, hat⟩ := h.quiet hadd
  obtain ⟨w, hw, hat⟩ := hat.emitSigbus page
  refine .head hv (.head hw ?_)
  by_cases hge : m.sigbusCount + 1 ≥ m.maxSigbus
  · rw [if_pos hge] at hat
    have hend : Finishes page s t _ _ _ _ := hat.store
    simpa [SafeMmap.recordSigbusFrom, hge, SafeMmap.emitEvent] using hend
  · rw [if_neg hge] at hat
    have hend : Finishes page s t _ _ _ _ := hat.ret
    simpa [SafeMmap.recordSigbusFrom, hge, SafeMmap.emitEvent] using hend

/-! ## Whole calls of `Sharing` -/

/-- INTERNAL: a call that is refused.
SOURCE: mmap/mod.rs:1013-1020 -/
theorem At.refused (h : At s t .refused .away m e r u) :
    Finishes page s t u (m.refuse (ρ := Unit) (.poisoned m.sigbusCount)).mmap
      (e ++ (m.refuse (ρ := Unit) (.poisoned m.sigbusCount)).events)
      (r ++ [(m.refuse (.poisoned m.sigbusCount)).result]) := by
  have hload (x : Sharing ι) (hpc : x.pc t = .refused) (hmmap : x.mmap = m) :
      ∃ n, Sharing.step page (t, .next) x =
        some ⟨m, Function.update x.pc t (.ret (.error (.poisoned m.sigbusCount))), x.events,
          x.returns, n⟩ :=
    ⟨x.recorded, by simp [Sharing.step, hpc, Sharing.goto, hmmap]⟩
  obtain ⟨v, hv, hat⟩ := h.quiet hload
  have hend : Finishes page s t _ _ _ _ := hat.ret
  exact .head hv (by simpa [SafeMmap.refuse] using hend)

/-- INTERNAL: the beginning of a call, up to its bounds checks; what a call does on a poisoned
mapping is its refusal.
SOURCE: mmap/mod.rs:503-510, 556-557, 668-669, 815-816, 1013-1020 -/
theorem At.call {o : Outcome Unit} (h : At s t .idle .away m e r u) (call : CallKind)
    (hrefuse : m.poisoned = true → o = m.refuse (.poisoned m.sigbusCount))
    (hgo : m.poisoned = false → ∀ v, At s t (Sharing.boundsStep m call) .away m e r v →
      Finishes page s t v o.mmap (e ++ o.events) (r ++ [o.result])) :
    Finishes page s t u o.mmap (e ++ o.events) (r ++ [o.result]) := by
  have hstart (x : Sharing ι) (hpc : x.pc t = .idle) (hmmap : x.mmap = m) :
      ∃ n, Sharing.step page (t, .call call) x =
        some ⟨m, Function.update x.pc t (.check call), x.events, x.returns, n⟩ :=
    ⟨x.recorded, by simp [Sharing.step, hpc, Sharing.goto, hmmap]⟩
  obtain ⟨v, hv, hat⟩ := h.quiet hstart
  refine .head hv ?_
  cases hpoisoned : m.poisoned with
  | true =>
      have hcheck (x : Sharing ι) (hpc : x.pc t = .check call) (hmmap : x.mmap = m) :
          ∃ n, Sharing.step page (t, .next) x =
            some ⟨m, Function.update x.pc t .refused, x.events, x.returns, n⟩ :=
        ⟨x.recorded, by simp [Sharing.step, hpc, Sharing.goto, hmmap, hpoisoned]⟩
      obtain ⟨w, hw, hat⟩ := hat.quiet hcheck
      rw [hrefuse hpoisoned]
      exact .head hw hat.refused
  | false =>
      have hcheck (x : Sharing ι) (hpc : x.pc t = .check call) (hmmap : x.mmap = m) :
          ∃ n, Sharing.step page (t, .next) x =
            some ⟨m, Function.update x.pc t (.bounds call), x.events, x.returns, n⟩ :=
        ⟨x.recorded, by simp [Sharing.step, hpc, Sharing.goto, hmmap, hpoisoned]⟩
      have hbounds (x : Sharing ι) (hpc : x.pc t = .bounds call) (hmmap : x.mmap = m) :
          ∃ n, Sharing.step page (t, .next) x =
            some ⟨m, Function.update x.pc t (Sharing.boundsStep m call), x.events, x.returns, n⟩ :=
        ⟨x.recorded, by simp [Sharing.step, hpc, Sharing.goto, hmmap]⟩
      obtain ⟨w, hw, hat⟩ := hat.quiet hcheck
      obtain ⟨x, hx, hat⟩ := hat.quiet hbounds
      exact .head hw (.head hx (hgo hpoisoned x hat))

/-- INTERNAL: the protected access.
SOURCE: mmap/mod.rs:511-517, 570-584, 824-838 -/
theorem At.touch (page : Usize) (h : At s t .access .away m e r u) (fault : Option Usize) :
    ∃ v, Resetting.step page (t, .share (.touch fault)) u = some v ∧
      At s t (Sharing.accessStep fault) .away m e r v := by
  have htouch (x : Sharing ι) (hpc : x.pc t = .access) (hmmap : x.mmap = m) :
      ∃ n, Sharing.step page (t, .touch fault) x =
        some ⟨m, Function.update x.pc t (Sharing.accessStep fault), x.events, x.returns, n⟩ :=
    ⟨x.recorded, by simp [Sharing.step, hpc, Sharing.goto, hmmap]⟩
  exact h.quiet htouch

/-- INTERNAL: an access that does not fault.
SOURCE: mmap/mod.rs:511-517, 570-584, 824-838 -/
theorem At.access_ok (h : At s t .access .away m e r u) :
    Finishes page s t u m e (r ++ [.ok ()]) := by
  obtain ⟨w, hw, hat⟩ := h.touch page none
  exact .head hw hat.ret

/-- INTERNAL: an access that faults.
SOURCE: mmap/mod.rs:511-517, 570-584, 824-838 -/
theorem At.access_fault (h : At s t .access .away m e r u) (addr : Usize) :
    Finishes page s t u (m.recordSigbusFrom (.sigbus addr)).1
      (e ++ (m.recordSigbusFrom (.sigbus addr)).2) (r ++ [.error (.sigbus addr)]) := by
  obtain ⟨w, hw, hat⟩ := h.touch page (some addr)
  exact .head hw hat.record

/-- INTERNAL: a copy of `write` or `read_into`.
SOURCE: mmap/mod.rs:570-584, 824-838 -/
theorem At.copy (h : At s t .access .away m e r u) (mem : Memory) (ptr len : Usize) :
    Finishes page s t u (m.copy mem ptr len).mmap (e ++ (m.copy mem ptr len).events)
      (r ++ [(m.copy mem ptr len).result]) := by
  unfold SafeMmap.copy
  rcases mem.touchAll 0 ((wordsBelow len).map fun i => ptr + i) with ⟨touched, result⟩
  cases result with
  | ok v =>
      have hend : Finishes page s t _ _ _ _ := h.access_ok
      simpa [SafeMmap.settle] using hend
  | error a =>
      have hend : Finishes page s t _ _ _ _ := h.access_fault a
      simpa [SafeMmap.settle] using hend

/-- INTERNAL: a whole `read`.
SOURCE: mmap/mod.rs:503-518, mmap/guard.rs:93-128 -/
theorem At.read (h : At s t .idle .away m e r u) (mem : Memory) (start stop : Usize)
    (f : Closure ρ) :
    Finishes page s t u (m.read mem start stop f).forget.mmap
      (e ++ (m.read mem start stop f).forget.events)
      (r ++ [(m.read mem start stop f).forget.result]) := by
  refine h.call (.read start stop) ?_ ?_
  · intro hpoisoned
    unfold SafeMmap.read
    rw [SafeMmap.checkPoisoned_poisoned hpoisoned]
    rfl
  · intro hclean v hv
    unfold SafeMmap.read
    rw [SafeMmap.checkPoisoned_clean hclean]
    unfold Sharing.boundsStep at hv
    unfold ReadGuard.read
    dsimp only at hv ⊢
    split
    · rename_i hout
      rw [if_pos hout] at hv
      have hend : Finishes page s t _ _ _ _ := hv.ret
      simpa [SafeMmap.settle, Outcome.forget, Except.map] using hend
    · rename_i hin
      rw [if_neg hin] at hv
      rcases mem.touchAll 0 ((f.touches (stop - start)).map fun i => m.raw.ptr + start + i)
        with ⟨touched, result⟩
      cases result with
      | ok w =>
          have hend : Finishes page s t _ _ _ _ := hv.access_ok
          simpa [SafeMmap.settle, Outcome.forget, Except.map] using hend
      | error a =>
          have hend : Finishes page s t _ _ _ _ := hv.access_fault a
          simpa [SafeMmap.settle, Outcome.forget, Except.map] using hend

/-- INTERNAL: a whole `write`.
SOURCE: mmap/mod.rs:556-585 -/
theorem At.write (h : At s t .idle .away m e r u) (mem : Memory) (offset : Usize) (data : Slice) :
    Finishes page s t u (m.write mem offset data).mmap (e ++ (m.write mem offset data).events)
      (r ++ [(m.write mem offset data).result]) := by
  refine h.call (.write offset data.len) ?_ ?_
  · intro hpoisoned
    unfold SafeMmap.write
    rw [SafeMmap.checkPoisoned_poisoned hpoisoned]
  · intro hclean v hv
    unfold SafeMmap.write
    rw [SafeMmap.checkPoisoned_clean hclean]
    unfold Sharing.boundsStep at hv
    dsimp only at hv ⊢
    cases hbounds : m.checkBounds offset data.len with
    | error err =>
        rw [hbounds] at hv
        have hend : Finishes page s t _ _ _ _ := hv.ret
        simpa [SafeMmap.refuse] using hend
    | ok w =>
        rw [hbounds] at hv
        cases hptr : m.raw.asMutPtr with
        | none =>
            rw [hptr] at hv
            have hend : Finishes page s t _ _ _ _ := hv.ret
            simpa [SafeMmap.refuse] using hend
        | some dst =>
            rw [hptr] at hv
            exact At.copy hv mem (dst + offset) data.len

/-- INTERNAL: a whole `read_into`.
SOURCE: mmap/mod.rs:815-839 -/
theorem At.readInto (h : At s t .idle .away m e r u) (mem : Memory) (offset : Usize)
    (buf : Slice) :
    Finishes page s t u (m.readInto mem offset buf).mmap
      (e ++ (m.readInto mem offset buf).events) (r ++ [(m.readInto mem offset buf).result]) := by
  refine h.call (.readInto offset buf.len) ?_ ?_
  · intro hpoisoned
    unfold SafeMmap.readInto
    rw [SafeMmap.checkPoisoned_poisoned hpoisoned]
  · intro hclean v hv
    unfold SafeMmap.readInto
    rw [SafeMmap.checkPoisoned_clean hclean]
    unfold Sharing.boundsStep at hv
    dsimp only at hv ⊢
    cases hbounds : m.checkBounds offset buf.len with
    | error err =>
        rw [hbounds] at hv
        have hend : Finishes page s t _ _ _ _ := hv.ret
        simpa [SafeMmap.refuse] using hend
    | ok w =>
        rw [hbounds] at hv
        exact At.copy hv mem (m.raw.ptr + offset) buf.len

/-- INTERNAL: one round of the loop of a probe.
SOURCE: mmap/mod.rs:676-685 -/
theorem At.probeRound {pos stop : Usize} (page : Usize)
    (h : At s t (.probing pos stop) .away m e r u) (fault : Option Usize) :
    ∃ v, Resetting.step page (t, .share (.touch fault)) u = some v ∧
      At s t (Sharing.probeStep page m pos stop fault) .away m e r v := by
  have htouch (x : Sharing ι) (hpc : x.pc t = .probing pos stop) (hmmap : x.mmap = m) :
      ∃ n, Sharing.step page (t, .touch fault) x =
        some ⟨m, Function.update x.pc t (Sharing.probeStep page m pos stop fault), x.events,
          x.returns, n⟩ :=
    ⟨x.recorded, by simp [Sharing.step, hpc, Sharing.goto, hmmap]⟩
  exact h.quiet htouch

/-- INTERNAL: **the loop of a probe**, by induction on the rounds that it takes.
SOURCE: mmap/mod.rs:676-685 -/
theorem At.probeLoop {stop : Usize} (mem : Memory) (fuel n : ℕ) (pos : Usize)
    (result : Except AccessError Unit) (touched : List Usize)
    (h : At s t (.probing pos stop) .away m e r u)
    (hloop : m.probeLoop page mem stop fuel n pos = some (result, touched)) :
    (∃ err, result = .error err ∧
      Finishes page s t u (m.recordSigbusFrom err).1 (e ++ (m.recordSigbusFrom err).2)
        (r ++ [.error err])) ∨
    (result = .ok () ∧ Finishes page s t u m e (r ++ [.ok ()])) := by
  induction fuel generalizing n pos u touched with
  | zero => cases hloop
  | succ fuel ih =>
      unfold SafeMmap.probeLoop at hloop
      by_cases hlt : pos < stop
      · rw [if_pos hlt] at hloop
        by_cases hout : (checkedAdd pos 1).elim true (fun e => decide (e > m.raw.len)) = true
        · -- the read is refused, which is recorded too
          obtain ⟨v, hv, hat⟩ := h.probeRound page none
          unfold Sharing.probeStep at hat
          rw [if_pos hlt, if_pos hout] at hat
          have hresult : result = .error (.outOfBounds pos 1 m.raw.len) := by
            simp [ReadGuard.read, hout] at hloop
            exact hloop.1.symm
          exact Or.inl ⟨_, hresult, .head hv hat.record⟩
        · have hin : m.raw.exceeds pos 1 = false := Bool.eq_false_iff.mpr hout
          rw [read_firstByte mem n hin] at hloop
          cases hfault : mem.faults n (m.raw.ptr + pos) with
          | true =>
              obtain ⟨v, hv, hat⟩ := h.probeRound page (some (m.raw.ptr + pos))
              unfold Sharing.probeStep at hat
              rw [if_pos hlt, if_neg hout] at hat
              have hresult : result = .error (.sigbus (m.raw.ptr + pos)) := by
                simp [hfault] at hloop
                exact hloop.1.symm
              exact Or.inl ⟨_, hresult, .head hv hat.record⟩
          | false =>
              obtain ⟨v, hv, hat⟩ := h.probeRound page none
              unfold Sharing.probeStep at hat
              rw [if_pos hlt, if_neg hout] at hat
              rw [hfault] at hloop
              obtain ⟨⟨rest, touched'⟩, hrest, heq⟩ := Option.map_eq_some_iff.mp hloop
              cases heq
              rcases ih (n + 1) (pos + page) touched' hat hrest with ⟨err, herr, hend⟩ | ⟨hok, hend⟩
              · exact Or.inl ⟨err, herr, .head hv hend⟩
              · exact Or.inr ⟨hok, .head hv hend⟩
      · rw [if_neg hlt] at hloop
        obtain ⟨v, hv, hat⟩ := h.probeRound page none
        unfold Sharing.probeStep at hat
        rw [if_neg hlt] at hat
        cases hloop
        exact Or.inr ⟨rfl, .head hv hat.ret⟩

/-- INTERNAL: a whole `probe`.
SOURCE: mmap/mod.rs:668-686 -/
theorem At.probe {o : Outcome Unit} (h : At s t .idle .away m e r u) (mem : Memory) (fuel : ℕ)
    (offset len : Usize) (ho : m.probe page mem fuel offset len = some o) :
    Finishes page s t u o.mmap (e ++ o.events) (r ++ [o.result]) := by
  unfold SafeMmap.probe at ho
  refine h.call (.probe offset len) ?_ ?_
  · intro hpoisoned
    rw [SafeMmap.checkPoisoned_poisoned hpoisoned] at ho
    exact (Option.some.inj ho).symm
  · intro hclean v hv
    rw [SafeMmap.checkPoisoned_clean hclean] at ho
    unfold Sharing.boundsStep at hv
    dsimp only at hv ho
    cases hbounds : m.checkBounds offset len with
    | error err =>
        rw [hbounds] at hv ho
        cases ho
        have hend : Finishes page s t _ _ _ _ := hv.ret
        simpa [SafeMmap.refuse] using hend
    | ok w =>
        rw [hbounds] at hv ho
        obtain ⟨⟨result, touched⟩, hloop, heq⟩ := Option.map_eq_some_iff.mp ho
        rcases At.probeLoop mem fuel 0 offset result touched hv hloop with
          ⟨err, rfl, hend⟩ | ⟨rfl, hend⟩
        · cases heq
          exact hend
        · cases heq
          simpa using hend

/-! ## Prefetch and reset -/

/-- INTERNAL: a step of a thread that is in a prefetch or in a reset.
SOURCE: mmap/mod.rs:766-787, 1008-1011 -/
theorem At.long_eq {c : CallPc} {d : LongPc} (h : At s t c d m e r u) :
    u.share.pc t = c ∧ u.long t = d := by
  rw [h.pc, h.long, Function.update_self, Function.update_self]
  exact ⟨rfl, rfl⟩

/-- INTERNAL: a thread that is in a prefetch moves on in it. -/
theorem At.turn (h : At s t c d m e r u) (d' : LongPc) : At s t c d' m e r (u.turn t d') where
  mmap := h.mmap
  pc := h.pc
  long := by
    show Function.update u.long t d' = _
    rw [h.long, Function.update_idem]
  events := h.events
  returns := h.returns

/-- INTERNAL: a thread that is in a prefetch goes on where the other calls do. -/
theorem At.rejoin (h : At s t c d m e r u) (c' : CallPc) :
    At s t c' .away m e r (u.rejoin t c') where
  mmap := h.mmap
  pc := by
    show Function.update u.share.pc t c' = _
    rw [h.pc, Function.update_idem]
  long := by
    show Function.update u.long t .away = _
    rw [h.long, Function.update_idem]
  events := h.events
  returns := h.returns

/-- INTERNAL: what `prefetch_with_timeout` does with the result of its worker.
SOURCE: mmap/mod.rs:778-787 -/
theorem At.result {offset len : Usize} (h : At s t .idle (.prefetching offset len) m e r u)
    (result : Except AccessError Unit) (touched : List Usize) {o : Outcome Unit}
    (hclean : m.poisoned = false) (hbounds : m.checkBounds offset len = .ok ())
    (ho : m.prefetchWithTimeout offset len result touched = o) :
    Finishes page s t u o.mmap (e ++ o.events) (r ++ [o.result]) := by
  have hstep : Resetting.step page (t, .result result) u =
      some (u.resultStep t offset len result) := by
    simp [Resetting.step, h.long_eq]
  unfold SafeMmap.prefetchWithTimeout at ho
  rw [SafeMmap.checkPoisoned_clean hclean, hbounds] at ho
  refine .head hstep ?_
  -- the result is returned as it is
  have hreturn (hsame : u.resultStep t offset len result = u.rejoin t (.ret result))
      (ho : (⟨result, touched, 0, [], m⟩ : Outcome Unit) = o) :
      Finishes page s t (u.resultStep t offset len result) o.mmap (e ++ o.events)
        (r ++ [o.result]) := by
    have hend : Finishes page s t _ _ _ _ := (h.rejoin (.ret result)).ret
    rw [hsame, ← ho]
    simpa using hend
  cases result with
  | ok v => exact hreturn rfl ho
  | error err =>
      cases err with
      | sigbus addr =>
          have hend : Finishes page s t _ _ _ _ := (h.rejoin (.record (.sigbus addr))).record
          rw [← ho]
          exact hend
      | timeout o' l d =>
          have hat : At s t (.ret (.error (.timeout o' l d))) .away m
              (e ++ m.emitEvent (.prefetchTimeout offset len)) r
              (u.resultStep t offset len (.error (.timeout o' l d))) := by
            have hrejoin := h.rejoin (.ret (.error (.timeout o' l d)))
            refine ⟨hrejoin.mmap, hrejoin.pc, hrejoin.long, ?_, hrejoin.returns⟩
            show u.share.events ++ u.share.mmap.emitEvent _ = _
            rw [h.events, h.mmap, List.append_assoc]
          rw [← ho]
          exact hat.ret
      | _ => exact hreturn rfl ho

/-- INTERNAL: a whole `prefetch_with_timeout`.
SOURCE: mmap/mod.rs:766-787 -/
theorem At.prefetch (h : At s t .idle .away m e r u) (offset len : Usize)
    (result : Except AccessError Unit) (touched : List Usize) :
    Finishes page s t u (m.prefetchWithTimeout offset len result touched).mmap
      (e ++ (m.prefetchWithTimeout offset len result touched).events)
      (r ++ [(m.prefetchWithTimeout offset len result touched).result]) := by
  have hstart : Resetting.step page (t, .prefetch offset len) u =
      some (u.turn t (.check offset len)) := by
    simp [Resetting.step, h.long_eq]
  have hcheck := h.turn (.check offset len)
  refine .head hstart ?_
  cases hpoisoned : m.poisoned with
  | true =>
      have hstep : Resetting.step page (t, .next) (u.turn t (.check offset len)) =
          some ((u.turn t (.check offset len)).rejoin t .refused) := by
        simp [Resetting.step, hcheck.long_eq, hcheck.mmap, hpoisoned]
      unfold SafeMmap.prefetchWithTimeout
      rw [SafeMmap.checkPoisoned_poisoned hpoisoned]
      exact .head hstep (hcheck.rejoin .refused).refused
  | false =>
      have hstep : Resetting.step page (t, .next) (u.turn t (.check offset len)) =
          some ((u.turn t (.check offset len)).turn t (.bounds offset len)) := by
        simp [Resetting.step, hcheck.long_eq, hcheck.mmap, hpoisoned]
      have hbounded := hcheck.turn (.bounds offset len)
      refine .head hstep ?_
      cases hbounds : m.checkBounds offset len with
      | error err =>
          have hfail : Resetting.step page (t, .next)
              ((u.turn t (.check offset len)).turn t (.bounds offset len)) =
                some (((u.turn t (.check offset len)).turn t (.bounds offset len)).rejoin t
                  (.ret (.error err))) := by
            simp [Resetting.step, hbounded.long_eq, hbounded.mmap, hbounds]
          have hend : Finishes page s t _ _ _ _ := (hbounded.rejoin (.ret (.error err))).ret
          unfold SafeMmap.prefetchWithTimeout
          rw [SafeMmap.checkPoisoned_clean hpoisoned, hbounds]
          exact .head hfail (by simpa [SafeMmap.refuse] using hend)
      | ok v =>
          have hgo : Resetting.step page (t, .next)
              ((u.turn t (.check offset len)).turn t (.bounds offset len)) =
                some (((u.turn t (.check offset len)).turn t (.bounds offset len)).turn t
                  (.prefetching offset len)) := by
            simp [Resetting.step, hbounded.long_eq, hbounded.mmap, hbounds]
          exact .head hgo ((hbounded.turn (.prefetching offset len)).result result touched
            hpoisoned hbounds rfl)

/-- INTERNAL: a whole `reset_poison`.
SOURCE: mmap/mod.rs:1008-1011 -/
theorem At.reset (h : At s t .idle .away m e r u) : Finishes page s t u m.resetPoison e r := by
  have hclear : Resetting.step page (t, .clear) u =
      some { u.turn t .zeroing with
        share := { u.share with mmap := { m with poisoned := false } } } := by
    simp [Resetting.step, h.long_eq, h.mmap]
  have hat : At s t .idle .zeroing { m with poisoned := false } e r
      { u.turn t .zeroing with
        share := { u.share with mmap := { m with poisoned := false } } } :=
    ⟨rfl, h.pc, (h.turn .zeroing).long, h.events, h.returns⟩
  have hzero {v : Resetting ι} (hv : At s t .idle .zeroing { m with poisoned := false } e r v) :
      Finishes page s t v m.resetPoison e r := by
    have hstep : Resetting.step page (t, .zero) v =
        some { v.turn t .away with
          share := { v.share with mmap := m.resetPoison } } := by
      simp [Resetting.step, hv.long_eq, hv.mmap, SafeMmap.resetPoison]
    exact .head hstep ⟨_, .refl _, rfl, hv.pc, (hv.turn .away).long, hv.events, hv.returns⟩
  exact .head hclear (hzero hat)

/-! ## Sessions -/

/-- INTERNAL: **every operation**, as a whole and cut.
SOURCE: mmap/mod.rs:503-839, 1008-1061, mmap/guard.rs:58-128 -/
theorem operation_finishes (op : Access ρ) {l l' : Logged}
    (h : At s t .idle .away l.session.mmap l.events l.returns u)
    (hop : l.step page op = some l') :
    Finishes page s t u l'.session.mmap l'.events l'.returns := by
  obtain ⟨o, ho, rfl⟩ := Option.map_eq_some_iff.mp hop
  -- an operation of the guards does nothing that the threads can see
  have hnothing (ho : o.mmap = l.session.mmap) (hevents : o.events = []) (hlogs : logs op = false) :
      Finishes page s t u o.mmap (l.events ++ o.events)
        (l.returns ++ if logs op then [o.result] else []) := by
    refine ⟨u, .refl u, ?_⟩
    simpa [ho, hevents, hlogs] using h
  cases op with
  | read mem start stop f =>
      cases ho
      exact h.read mem start stop f
  | write mem offset data =>
      cases ho
      exact h.write mem offset data
  | readInto mem offset buf =>
      cases ho
      exact h.readInto mem offset buf
  | probe mem fuel offset len => exact h.probe mem fuel offset len ho
  | prefetchWithTimeout offset len result touched =>
      cases ho
      exact h.prefetch offset len result touched
  | guard =>
      cases ho
      exact hnothing rfl rfl rfl
  | guardRead g mem offset len f =>
      simp only [Access.outcome] at ho
      split at ho
      · cases ho
        exact hnothing rfl rfl rfl
      · cases ho
  | resetPoison =>
      cases ho
      have hend : Finishes page s t _ _ _ _ := h.reset
      simpa [logs] using hend

/-- Since `s` the threads have done what the session `l` has. -/
def Same (s : Resetting ι) (l : Logged) (u : Resetting ι) : Prop :=
  u.share.mmap = l.session.mmap ∧ u.share.events = s.share.events ++ l.events ∧
    u.share.returns = s.share.returns ++ l.returns ∧ u.share.pc = s.share.pc ∧ u.long = s.long

/-- RESULT: **calls one after the other are sessions.** In any state of any number of threads, with
some of them held up anywhere inside their calls, other threads make calls one after the other,
each as a whole on the memory that it meets. Then the cut calls have a run, of steps of these
threads only, that leaves the mapping as the whole calls do, returns their results and emits their
events in their order, and leaves every thread where it was.
SOURCE: mmap/mod.rs:503-839, 1008-1061, mmap/guard.rs:58-128 -/
theorem serial_calls (page : Usize) (s : Resetting ι) (guards : ℕ) (ops : List (ι × Access ρ))
    (l : Logged) (hidle : ∀ a ∈ ops, s.share.pc a.1 = .idle ∧ s.long a.1 = .away)
    (h : run (fun a : ι × Access ρ => Logged.step page a.2) ops ⟨⟨s.share.mmap, guards⟩, [], []⟩ =
      some l) :
    ∃ acts u, run (Resetting.step page) acts s = some u ∧
      (∀ a ∈ acts, a.1 ∈ ops.map Prod.fst) ∧ u.share.mmap = l.session.mmap ∧
      u.share.events = s.share.events ++ l.events ∧
      u.share.returns = s.share.returns ++ l.returns ∧
      u.share.pc = s.share.pc ∧ u.long = s.long := by
  -- a thread that is in no call is where it was
  have hstay (t : ι) (ht : s.share.pc t = .idle ∧ s.long t = .away) :
      Function.update s.share.pc t .idle = s.share.pc ∧
        Function.update s.long t .away = s.long := by
    rw [← ht.1, ← ht.2, Function.update_eq_self, Function.update_eq_self]
    exact ⟨rfl, rfl⟩
  have hstep (a : ι × Access ρ) (l l' : Logged) (u : Resetting ι) (ha : a ∈ ops)
      (hu : Same s l u)
      (hop : Logged.step page a.2 l = some l') :
      ∃ v, Leads (Resetting.step page) (fun b => b.1 ∈ ops.map Prod.fst) u v ∧ Same s l' v := by
    obtain ⟨hmmap, hevents, hreturns, hpc, hlong⟩ := hu
    obtain ⟨hsamePc, hsameLong⟩ := hstay a.1 (hidle a ha)
    obtain ⟨v, hv, hat⟩ := operation_finishes a.2
      ⟨hmmap, hpc.trans hsamePc.symm, hlong.trans hsameLong.symm, hevents, hreturns⟩ hop
    refine ⟨v, hv.mono ?_, hat.mmap, hat.events, hat.returns, hat.pc.trans hsamePc,
      hat.long.trans hsameLong⟩
    intro b hb
    rw [hb]
    exact List.mem_map_of_mem ha
  have hstart : Same s ⟨⟨s.share.mmap, guards⟩, [], []⟩ s := by simp [Same]
  obtain ⟨u, ⟨acts, hacts, hrun⟩, hsame⟩ :=
    leads_simulates (Same s) hstep ops (fun a ha => ha) hstart h
  exact ⟨acts, u, hrun, hacts, hsame⟩

/-- A mapping of one page with a threshold of one and a callback. -/
def onePage : SafeMmap :=
  { SafeMmapOptions.new with maxSigbus := 1, onEvent := true }.finish ⟨0x10000, 4096, false⟩

/-- A probe that faults, a read that is refused, and a read after a reset. -/
def faultRefuseReset : List (Bool × Access UInt8) :=
  [(true, .probe ⟨fun _ => 0, fun _ _ => true⟩ 2 0 1),
    (true, .read ⟨fun _ => 0, fun _ _ => false⟩ 0 1 SafeMmap.firstByte), (true, .resetPoison),
    (true, .read ⟨fun _ => 0, fun _ _ => false⟩ 0 1 SafeMmap.firstByte)]

/-- `serial_calls` is about threads that are held up: one is about to access the page while the
other one makes the calls of `faultRefuseReset`. -/
theorem serial_calls_faultRefuseReset :
    ∃ acts u, run (Resetting.step 4096) acts
        ((Resetting.init Bool onePage).rejoin false .access) = some u ∧
      (∀ a ∈ acts, a.1 = true) ∧ u.share.mmap = onePage ∧
      u.share.events = [.sigbus 0x10000, .poisoned 1] ∧
      u.share.returns = [.error (.sigbus 0x10000), .error (.poisoned 1), .ok ()] ∧
      u.share.pc false = .access := by
  obtain ⟨acts, u, hrun, hacts, hmmap, hevents, hreturns, hpc, -⟩ := serial_calls 4096
    ((Resetting.init Bool onePage).rejoin false .access) 0 faultRefuseReset
    ⟨⟨onePage, 0⟩, [.sigbus 0x10000, .poisoned 1],
      [.error (.sigbus 0x10000), .error (.poisoned 1), .ok ()]⟩
    (by simp [faultRefuseReset, Resetting.rejoin, Resetting.turn, Sharing.goto, Resetting.init,
      Sharing.init]) rfl
  refine ⟨acts, u, hrun, ?_, hmmap, hevents, hreturns, ?_⟩
  · intro a ha
    simpa [faultRefuseReset] using hacts a ha
  · rw [hpc]
    rfl

end MmapShield.Analysis.Serial
