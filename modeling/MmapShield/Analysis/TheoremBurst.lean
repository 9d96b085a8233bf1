import MmapShield.Analysis.TheoremReentry
import Mathlib.Algebra.Order.BigOperators.Group.Finset

/-!
# How many faults get through before the mapping is poisoned

`max_sigbus` is a threshold, not a bound: a call that has been let through is not stopped by the
flag, and the flag is set only after the callback of the fault that reaches the threshold. So each
level of each thread may bring one more fault, and a callback that reads the mapping adds levels.

The bound comes from the books: as long as the flag is not set each count that has reached the
threshold is owed a `Poisoned` event, by a call that is running or by one that was unwound. The
runs that attain it fault below the threshold first, and then once more at every level.
-/

set_option autoImplicit false

namespace MmapShield.Analysis.Burst

open MmapShield.Computation MmapShield.Model MmapShield.Analysis MmapShield.Analysis.Callbacks

variable {τ : Type}

/-! ## The bound -/

/-- INTERNAL: how many counts have reached the threshold. -/
theorem poisonCounts_length (limit : UInt32) (n : ℕ) :
    (poisonCounts limit n).length + max 1 limit.toNat = max (n + 1) (max 1 limit.toNat) := by
  induction n with
  | zero => simp [poisonCounts]
  | succ n ih =>
    rw [poisonCounts_succ, List.length_append]
    by_cases hreached : limit.toNat ≤ n + 1
    · rw [if_pos hreached, List.length_singleton]
      omega
    · rw [if_neg hreached, List.length_nil]
      omega

/-- How many `Poisoned` events a call owes. -/
def owed (limit : UInt32) (c : CallPc) : ℕ :=
  (pending limit c).countP fun event => isWarning event = true

/-- INTERNAL: a thread owes at most one count. -/
theorem owed_le_one (limit : UInt32) (c : CallPc) : owed limit c ≤ 1 := by
  cases c with
  | emitSigbus err count =>
    have hrest : Multiset.card (if count ≥ limit then {MmapEvent.poisoned count} else 0) ≤ 1 := by
      split <;> simp
    simp only [owed, pending, Multiset.countP_add]
    exact (Nat.add_le_add (Nat.le_of_eq (Multiset.countP_eq_zero.mpr (by simp [isWarning])))
      ((Multiset.countP_le_card _ _).trans hrest)).trans (Nat.le_refl 1)
  | record err => exact Multiset.countP_le_card _ _
  | store err count => exact Multiset.countP_le_card _ _
  | emitPoisoned err count => exact Multiset.countP_le_card _ _
  | _ => exact Nat.zero_le 1

/-- INTERNAL: levels that are not there owe nothing. -/
theorem levels_le {n depth : ℕ} (g : ℕ → ℕ) (hone : ∀ d, g d ≤ 1)
    (habove : ∀ d, depth < d → g d = 0) : ∑ d : Fin n, g d ≤ depth + 1 := by
  rw [Fin.sum_univ_eq_sum_range]
  calc ∑ d ∈ Finset.range n, g d ≤ ∑ d ∈ Finset.range (depth + 1), g d := by
        refine Finset.sum_le_sum_of_ne_zero fun d _ hd => ?_
        rw [Finset.mem_range]
        by_contra hge
        exact hd (habove d (by omega))
    _ ≤ ∑ _d ∈ Finset.range (depth + 1), 1 := Finset.sum_le_sum fun d _ => hone d
    _ = depth + 1 := by simp

variable [DecidableEq τ] [Fintype τ] {mmap : SafeMmap} {n steps : ℕ} {s : Reentry τ}

omit [DecidableEq τ] in
/-- INTERNAL: **the warnings that are owed**: while the flag is not set, each count that has
reached the threshold belongs to a call that is running or to one that was unwound. -/
theorem warnings_owed (h : Reconciled mmap n steps s) (hfew : s.share.recorded < 2 ^ 32)
    (hfresh : s.share.mmap.poisoned = false) :
    (poisonCounts mmap.maxSigbus s.share.recorded).length ≤
      s.lost.length + ∑ t, (s.depth t + 1) := by
  obtain ⟨books, hmirror, hbooked⟩ := h.books
  obtain ⟨haccounts, -⟩ := hbooked.accounts (by rw [hmirror.recorded]; exact hfew)
  have hheard : books.mmap.onEvent = s.share.mmap.onEvent := by rw [hmirror.mmap]
  have hunwarned : s.share.events.countP isWarning = 0 := by
    rw [List.countP_eq_zero]
    intro event hmem hwarning
    cases event with
    | poisoned count =>
      have hset := h.flagged.mpr (Or.inl ⟨count, hmem⟩)
      rw [hfresh] at hset
      cases hset
    | _ => cases hwarning
  have hfaults (addrs : Multiset Usize) :
      (addrs.map MmapEvent.sigbus).countP (fun event => isWarning event = true) = 0 := by
    rw [Multiset.countP_eq_zero]
    intro event hmem
    obtain ⟨addr, -, rfl⟩ := Multiset.mem_map.mp hmem
    exact Bool.false_ne_true
  have hbalance := congrArg (Multiset.countPAddMonoidHom fun event => isWarning event = true)
    (haccounts.events (hheard.trans h.heard))
  rw [map_add, map_add, total_map, hmirror.events, hmirror.recorded, hbooked.fixed.1] at hbalance
  simp only [Multiset.coe_countPAddMonoidHom, hfaults, Multiset.countP_add, Multiset.coe_countP,
    Bool.decide_eq_true, hunwarned, countP_warnings, zero_add] at hbalance
  rw [countP_warnings (fun count => count) s.lost] at hbalance
  have hlevels : total (owed mmap.maxSigbus) books.pc ≤ ∑ t, (s.depth t + 1) := by
    rw [total, Fintype.sum_prod_type]
    refine Finset.sum_le_sum fun t _ => ?_
    simp only [hmirror.pc]
    refine levels_le (fun d => owed mmap.maxSigbus (s.share.pc (t, d))) (fun d => owed_le_one _ _)
      fun d hd => ?_
    simp only [h.above t d hd]
    rfl
  rw [← hbalance]
  exact Nat.add_le_add_left hlevels _

/-! ## The runs that attain it -/

/-- A run without a panic has come to `s` with `k` faults, and the flag is not set. -/
structure Storm (page : Usize) (mmap : SafeMmap) (k : ℕ) (s : Reentry τ) : Prop where
  reached : ∃ acts, (∀ a ∈ acts, a.2 ≠ .panic) ∧
    run (Reentry.step page) acts (.init τ mmap) = some s
  mmap : s.share.mmap = { mmap with sigbusCount := UInt32.ofNat k }
  recorded : s.share.recorded = k
  lost : s.lost = []
  above : ∀ t d, s.depth t < d → s.share.pc (t, d) = .idle

/-- The call that each level of the storm makes, up to its `fetch_add`. -/
def faulting : List ReentryAct :=
  [.act (.call (.read 0 1)), .act .next, .act .next, .act (.touch (some 0)), .act .next]

section Attained

variable {page : Usize} {mmap : SafeMmap} {k : ℕ} {s s' : Reentry τ} {t : τ}

omit [Fintype τ] in
/-- INTERNAL: a call at one level leaves the places at the levels above it alone. -/
theorem update_above {pc : τ × ℕ → CallPc} {c : CallPc} {depth : τ → ℕ} {u : τ} {d : ℕ}
    (hd : depth u < d) : Function.update pc (t, depth t) c (u, d) = pc (u, d) := by
  apply Function.update_of_ne
  rintro ⟨⟩
  exact absurd hd (Nat.lt_irrefl _)

/-- The highest level of a thread is at `c`. -/
def atTop (s : Reentry τ) (t : τ) (c : CallPc) : Reentry τ :=
  { s with share := s.share.goto (t, s.depth t) c }

omit [Fintype τ] in
/-- INTERNAL: a thread that is where it is put does not move. -/
theorem atTop_self {c : CallPc} (h : s.share.pc (t, s.depth t) = c) : atTop s t c = s := by
  rw [atTop, Sharing.goto, ← h, Function.update_eq_self]

omit [Fintype τ] in
/-- INTERNAL: a thread is where it is put. -/
theorem atTop_pc (c : CallPc) : (atTop s t c).share.pc (t, s.depth t) = c :=
  Function.update_self _ _ _

omit [Fintype τ] in
/-- INTERNAL: of two places that a thread is put at, the second counts. -/
theorem atTop_goto (c c' : CallPc) :
    (atTop s t c).share.goto (t, s.depth t) c' = s.share.goto (t, s.depth t) c' := by
  simp only [atTop, Sharing.goto, Function.update_idem]

omit [Fintype τ] in
/-- INTERNAL: the highest level moves on, without an event. -/
theorem atTop_step {act : ShareAct} {c : CallPc} {share : Sharing (τ × ℕ)}
    (hemits : Reentry.emits c = false)
    (hstep : Sharing.step page ((t, s.depth t), act) (atTop s t c).share = some share) :
    Reentry.step page (t, .act act) (atTop s t c) = some { s with share := share } := by
  have htop : (atTop s t c).share.pc (t, (atTop s t c).depth t) = c := atTop_pc c
  unfold Reentry.step
  dsimp only
  rw [htop, hemits, Bool.and_false]
  exact congrArg (Option.map _) hstep

omit [Fintype τ] in
/-- INTERNAL: **one more fault**, at the highest level of a thread. -/
theorem Storm.fault (h : Storm page mmap k s) (hfresh : mmap.poisoned = false)
    (hlen : 0 < mmap.raw.len) (htop : s.share.pc (t, s.depth t) = .idle) :
    ∃ s', Storm page mmap (k + 1) s' ∧ s'.depth = s.depth ∧
      s'.share.pc = Function.update s.share.pc (t, s.depth t)
        (.emitSigbus (.sigbus 0) (UInt32.ofNat (k + 1))) := by
  obtain ⟨acts, hcalm, hacts⟩ := h.reached
  have hcount : s.share.mmap.sigbusCount + 1 = UInt32.ofNat (k + 1) := by
    rw [h.mmap, UInt32.ofNat_add]
    rfl
  have hbounds : Sharing.boundsStep s.share.mmap (.read 0 1) = .access := by
    have hin : decide (1 > mmap.raw.len) = false := by
      rw [decide_eq_false_iff_not, gt_iff_lt, UInt64.lt_iff_toNat_lt]
      rw [UInt64.lt_iff_toNat_lt] at hlen
      exact Nat.not_lt.mpr hlen
    rw [h.mmap]
    show (if (checkedAdd 0 1).elim true fun e => decide (e > mmap.raw.len) then _ else _) = _
    rw [show checkedAdd 0 1 = some 1 from rfl, Option.elim_some, hin]
    rfl
  have hsilent {act : ShareAct} {c c' : CallPc} (hemits : Reentry.emits c = false)
      (hstep : Sharing.step page ((t, s.depth t), act) (atTop s t c).share =
        some ((atTop s t c).share.goto (t, s.depth t) c')) :
      Reentry.step page (t, .act act) (atTop s t c) = some (atTop s t c') := by
    rw [atTop_goto] at hstep
    exact atTop_step hemits hstep
  have hrun : run (Reentry.step page) (faulting.map fun act => (t, act)) (atTop s t .idle) =
      some { s with share := { s.share with
        pc := Function.update s.share.pc (t, s.depth t)
          (.emitSigbus (.sigbus 0) (UInt32.ofNat (k + 1)))
        mmap := { mmap with sigbusCount := UInt32.ofNat (k + 1) }
        recorded := k + 1 } } := by
    simp only [faulting, List.map_cons, List.map_nil, run_cons]
    refine ⟨atTop s t (.check (.read 0 1)), hsilent rfl ?_,
      atTop s t (.bounds (.read 0 1)), hsilent rfl ?_,
      atTop s t .access, hsilent rfl ?_,
      atTop s t (.record (.sigbus 0)), hsilent rfl ?_, _, atTop_step rfl ?_, rfl⟩
    · simp only [Sharing.step, atTop_pc]
    · simp only [Sharing.step, atTop_pc]
      rw [show (atTop s t _).share.mmap.poisoned = false by
        simp only [atTop, Sharing.goto, h.mmap, hfresh]]
      rfl
    · simp only [Sharing.step, atTop_pc]
      exact congrArg some (congrArg _ hbounds)
    · simp only [Sharing.step, atTop_pc]
      rfl
    · simp only [Sharing.step, atTop_pc, atTop_goto]
      simp only [atTop, Sharing.goto, hcount, h.recorded]
      rw [h.mmap]
  rw [atTop_self htop] at hrun
  have hcalm' : ∀ a ∈ acts ++ faulting.map fun act => (t, act), a.2 ≠ .panic :=
    List.forall_mem_append.mpr ⟨hcalm, by simp [faulting]⟩
  refine ⟨_, ⟨⟨_, hcalm', (run_append acts _).mpr ⟨s, hacts, hrun⟩⟩, rfl, rfl, h.lost, ?_⟩, rfl,
    rfl⟩
  intro u d hd
  exact (update_above hd).trans (h.above u d hd)

omit [Fintype τ] in
/-- INTERNAL: one step more that brings no fault. -/
theorem Storm.next {a : τ × ReentryAct} (h : Storm page mmap k s) (ha : a.2 ≠ .panic)
    (hstep : Reentry.step page a s = some s') (hmmap : s'.share.mmap = s.share.mmap)
    (hrecorded : s'.share.recorded = s.share.recorded) (hlost : s'.lost = s.lost)
    (habove : ∀ t d, s'.depth t < d → s'.share.pc (t, d) = .idle) : Storm page mmap k s' := by
  obtain ⟨acts, hcalm, hacts⟩ := h.reached
  have hlast : run (Reentry.step page) [a] s = some s' := (run_cons a []).mpr ⟨s', hstep, rfl⟩
  refine ⟨⟨acts ++ [a], ?_, (run_append acts [a]).mpr ⟨s, hacts, hlast⟩⟩, hmmap.trans h.mmap,
    hrecorded.trans h.recorded, hlost.trans h.lost, habove⟩
  exact List.forall_mem_append.mpr ⟨hcalm, by simpa using ha⟩

omit [Fintype τ] in
/-- INTERNAL: the callback of the fault starts.
SOURCE: mmap/mod.rs:1047 -/
theorem Storm.emit (h : Storm page mmap k s) (hon : mmap.onEvent = true) (count : UInt32)
    (htop : s.share.pc (t, s.depth t) = .emitSigbus (.sigbus 0) count) :
    ∃ s', Storm page mmap k s' ∧ s'.depth = Function.update s.depth t (s.depth t + 1) ∧
      s'.share.pc = Function.update s.share.pc (t, s.depth t)
        (if count ≥ mmap.maxSigbus then .store (.sigbus 0) count
          else .ret (.error (.sigbus 0))) := by
  have hheard : s.share.mmap.onEvent = true := by rw [h.mmap, hon]
  have hlimit : s.share.mmap.maxSigbus = mmap.maxSigbus := by rw [h.mmap]
  have hstep : Reentry.step page (t, .act .next) s = some { s with
      share := { s.share.goto (t, s.depth t) (if count ≥ mmap.maxSigbus then
          .store (.sigbus 0) count else .ret (.error (.sigbus 0))) with
        events := s.share.events ++ s.share.mmap.emitEvent (.sigbus 0) }
      depth := Function.update s.depth t (s.depth t + 1) } := by
    simp only [Reentry.step, Sharing.step, htop, Option.map_some, hheard, hlimit]
    rfl
  refine ⟨_, h.next (by simp) hstep rfl rfl rfl ?_, rfl, rfl⟩
  intro u d hd
  have hbefore : s.depth u < d := by
    by_cases hu : u = t
    · subst hu
      simp only [Function.update_self] at hd
      omega
    · simpa only [Function.update_of_ne hu] using hd
  exact (update_above hbefore).trans (h.above u d hbefore)

omit [Fintype τ] in
/-- INTERNAL: a fault below the threshold whose callback does nothing.
SOURCE: mmap/mod.rs:1045-1049 -/
theorem Storm.spare (h : Storm page mmap k s) (hfresh : mmap.poisoned = false)
    (hlen : 0 < mmap.raw.len) (hon : mmap.onEvent = true) (hk : k + 1 < mmap.maxSigbus.toNat)
    (htop : s.share.pc (t, s.depth t) = .idle) :
    ∃ s', Storm page mmap (k + 1) s' ∧ s'.depth = s.depth ∧ s'.share.pc = s.share.pc := by
  obtain ⟨one, hone, hdepth, hpc⟩ := h.fault hfresh hlen htop
  obtain ⟨two, htwo, hdepth', hpc'⟩ := hone.emit hon (UInt32.ofNat (k + 1)) (t := t)
    (by rw [hdepth, hpc, Function.update_self])
  have hbelow : ¬ (UInt32.ofNat (k + 1) ≥ mmap.maxSigbus) := by
    have hfits := UInt32.toNat_lt mmap.maxSigbus
    rw [ge_iff_le, UInt32.le_iff_toNat_le, UInt32.toNat_ofNat_of_lt' (hk.trans hfits)]
    omega
  rw [hdepth] at hdepth' hpc'
  rw [hpc, Function.update_idem, if_neg hbelow] at hpc'
  have hlevel : two.depth t = s.depth t + 1 := by rw [hdepth', Function.update_self]
  have hback : Function.update two.depth t (s.depth t) = s.depth := by
    rw [hdepth', Function.update_idem, Function.update_eq_self]
  have habove (u : τ) (d : ℕ) (hd : s.depth u < d) : two.share.pc (u, d) = .idle := by
    rw [hpc', update_above hd]
    exact h.above u d hd
  have hleave : Reentry.step page (t, .leave) two = some { two with depth := s.depth } := by
    simp only [Reentry.step, hlevel, habove t (s.depth t + 1) (Nat.lt_succ_self _), hback]
  have hthree := htwo.next (by simp) hleave rfl rfl rfl habove
  have hret : Reentry.step page (t, .act .next) { two with depth := s.depth } =
      some { two with
        share := { two.share.goto (t, s.depth t) .idle with
          returns := two.share.returns ++ [.error (.sigbus 0)] }
        depth := s.depth } := by
    simp only [Reentry.step, Sharing.step, hpc', Function.update_self, Option.map_some,
      Reentry.emits, Bool.and_false]
    rfl
  have hpc'' : (two.share.goto (t, s.depth t) .idle).pc = s.share.pc := by
    rw [Sharing.goto, hpc', Function.update_idem, ← htop, Function.update_eq_self]
  refine ⟨_, hthree.next (by simp) hret rfl rfl rfl ?_, rfl, hpc''⟩
  intro u d hd
  exact (congrFun hpc'' (u, d)).trans (h.above u d hd)

omit [Fintype τ] in
/-- INTERNAL: a step of one thread leaves the places of the others alone. -/
theorem update_others {pc : τ × ℕ → CallPc} {c : CallPc} {u : τ} {d e : ℕ} (hu : u ≠ t) :
    Function.update pc (t, e) c (u, d) = pc (u, d) :=
  Function.update_of_ne (fun heq => hu (congrArg Prod.fst heq)) _ _

omit [Fintype τ] in
/-- INTERNAL: **a thread climbs**: it faults at each of `levels` further levels and one above
them, each time from the callback of the fault below.
SOURCE: mmap/mod.rs:1045-1047 -/
theorem Storm.climb (h : Storm page mmap k s) (hfresh : mmap.poisoned = false)
    (hlen : 0 < mmap.raw.len) (hon : mmap.onEvent = true)
    (htop : s.share.pc (t, s.depth t) = .idle) (levels : ℕ) :
    ∃ s', Storm page mmap (k + (levels + 1)) s' ∧
      s'.depth = Function.update s.depth t (s.depth t + levels) ∧
      ∀ u, u ≠ t → ∀ d, s'.share.pc (u, d) = s.share.pc (u, d) := by
  induction levels generalizing k s with
  | zero =>
    obtain ⟨one, hone, hdepth, hpc⟩ := h.fault hfresh hlen htop
    refine ⟨one, hone, ?_, fun u hu d => by rw [hpc, update_others hu]⟩
    rw [hdepth, Nat.add_zero, Function.update_eq_self]
  | succ levels ih =>
    obtain ⟨one, hone, hdepth, hpc⟩ := h.fault hfresh hlen htop
    obtain ⟨two, htwo, hdepth', hpc'⟩ := hone.emit hon (UInt32.ofNat (k + 1)) (t := t)
      (by rw [hdepth, hpc, Function.update_self])
    rw [hdepth] at hdepth' hpc'
    rw [hpc, Function.update_idem] at hpc'
    have hlevel : two.depth t = s.depth t + 1 := by rw [hdepth', Function.update_self]
    have hnext : two.share.pc (t, two.depth t) = .idle := by
      rw [hlevel, hpc', update_above (Nat.lt_succ_self _)]
      exact h.above t _ (Nat.lt_succ_self _)
    obtain ⟨top, htop', hdepth'', hframe⟩ := ih htwo hnext
    refine ⟨top, ?_, ?_, ?_⟩
    · rw [show k + (levels + 1 + 1) = k + 1 + (levels + 1) by omega]
      exact htop'
    · rw [hdepth'', hlevel, hdepth', Function.update_idem,
        show s.depth t + 1 + levels = s.depth t + (levels + 1) by omega]
    · intro u hu d
      rw [hframe u hu d, hpc', update_others hu]

omit [Fintype τ] in
/-- INTERNAL: **some threads climb**, one after the other. -/
theorem Storm.gather (h : Storm page mmap k s) (hfresh : mmap.poisoned = false)
    (hlen : 0 < mmap.raw.len) (hon : mmap.onEvent = true) (levels : τ → ℕ) (ts : Finset τ)
    (hrest : ∀ t ∈ ts, s.depth t = 0 ∧ s.share.pc (t, 0) = .idle) :
    ∃ s', Storm page mmap (k + ∑ t ∈ ts, (levels t + 1)) s' ∧
      (∀ t ∈ ts, s'.depth t = levels t) ∧ ∀ t ∉ ts, s'.depth t = s.depth t := by
  induction ts using Finset.induction_on generalizing k s with
  | empty => exact ⟨s, h, fun t ht => absurd ht (Finset.notMem_empty t), fun _ _ => rfl⟩
  | insert t ts hnew ih =>
    obtain ⟨hzero, hidle⟩ := hrest t (Finset.mem_insert_self t ts)
    obtain ⟨one, hone, hdepth, hframe⟩ :=
      h.climb hfresh hlen hon (t := t) (by rw [hzero]; exact hidle) (levels t)
    rw [hzero, Nat.zero_add] at hdepth
    have hrest' (u : τ) (hu : u ∈ ts) : one.depth u = 0 ∧ one.share.pc (u, 0) = .idle := by
      have hne : u ≠ t := fun heq => hnew (heq ▸ hu)
      rw [hdepth, Function.update_of_ne hne, hframe u hne]
      exact hrest u (Finset.mem_insert_of_mem hu)
    obtain ⟨all, hall, hdone, hleft⟩ := ih hone hrest'
    refine ⟨all, ?_, ?_, ?_⟩
    · rw [Finset.sum_insert hnew, ← Nat.add_assoc]
      exact hall
    · intro u hu
      rcases Finset.mem_insert.mp hu with rfl | hu
      · rw [hleft u hnew, hdepth, Function.update_self]
      · exact hdone u hu
    · intro u hu
      have hne : u ≠ t := fun heq => hu (heq ▸ Finset.mem_insert_self t ts)
      rw [hleft u fun hmem => hu (Finset.mem_insert_of_mem hmem), hdepth,
        Function.update_of_ne hne]

omit [Fintype τ] in
/-- INTERNAL: the faults below the threshold, all of one thread. -/
theorem storm_below (page : Usize) (t : τ) (opts : SafeMmapOptions) (raw : RawMmap)
    (hlen : 0 < raw.len) (hon : opts.onEvent = true) (hk : k < max 1 opts.maxSigbus.toNat) :
    ∃ s : Reentry τ, Storm page (opts.finish raw) k s ∧ s.depth = (fun _ => 0) ∧
      s.share.pc = fun _ => .idle := by
  induction k with
  | zero =>
    exact ⟨.init τ (opts.finish raw), ⟨⟨[], by simp, rfl⟩, rfl, rfl, rfl, fun _ _ _ => rfl⟩,
      rfl, rfl⟩
  | succ k ih =>
    obtain ⟨s, hs, hdepth, hpc⟩ := ih (by omega)
    obtain ⟨s', hs', hdepth', hpc'⟩ := hs.spare (t := t) rfl hlen hon
      (show k + 1 < opts.maxSigbus.toNat by omega) (by rw [hpc])
    exact ⟨s', hs', hdepth'.trans hdepth, hpc'.trans hpc⟩

end Attained

/-- RESULT: **how many faults get through.** Any number of threads use a mapping with a callback,
from their own code and from the callback. As long as the flag is not set there were fewer faults
than `max(1, max_sigbus)`, the lost counts and one for each level of each thread together; and for
all numbers of levels a run without a panic comes to one fault less than that. So no `max_sigbus`
bounds the faults of a single thread whose callback reads the mapping.
SOURCE: mmap/mod.rs:503-585, 668-686, 815-839, 1013-1061 -/
theorem faults_before_poisoning {τ : Type} [DecidableEq τ] [Fintype τ] [Nonempty τ] (page : Usize)
    (opts : SafeMmapOptions) (raw : RawMmap) (hon : opts.onEvent = true) (hlen : 0 < raw.len) :
    (∀ (acts : List (τ × ReentryAct)) (s : Reentry τ),
      run (Reentry.step page) acts (.init τ (opts.finish raw)) = some s →
      s.share.recorded < 2 ^ 32 → s.share.mmap.poisoned = false →
      s.share.recorded < max 1 opts.maxSigbus.toNat + s.lost.length + ∑ t, (s.depth t + 1)) ∧
    ∀ levels : τ → ℕ, ∃ (acts : List (τ × ReentryAct)) (s : Reentry τ),
      (∀ a ∈ acts, a.2 ≠ .panic) ∧
      run (Reentry.step page) acts (.init τ (opts.finish raw)) = some s ∧
      s.share.mmap.poisoned = false ∧ s.depth = levels ∧ s.lost = [] ∧
      s.share.recorded + 1 = max 1 opts.maxSigbus.toNat + ∑ t, (levels t + 1) := by
  refine ⟨?_, ?_⟩
  · intro acts s h hfew hfresh
    have hreconciled : Reconciled (opts.finish raw) (acts.length + 1) 0 s :=
      run_countdown (fun steps s => Reconciled (opts.finish raw) (acts.length + 1) steps s)
        Reconciled.step acts (reconciled_init opts raw hon (Nat.lt_succ_self _)) h
    have howed := warnings_owed hreconciled hfew hfresh
    have hlength := poisonCounts_length opts.maxSigbus s.share.recorded
    have hlimit : (opts.finish raw).maxSigbus = opts.maxSigbus := rfl
    rw [hlimit] at howed
    omega
  · intro levels
    obtain ⟨t⟩ := ‹Nonempty τ›
    obtain ⟨s, hs, hdepth, hpc⟩ := storm_below page t opts raw hlen hon
      (show max 1 opts.maxSigbus.toNat - 1 < max 1 opts.maxSigbus.toNat by omega)
    obtain ⟨s', hs', hdone, -⟩ := hs.gather rfl hlen hon levels Finset.univ
      (fun u _ => by rw [hdepth, hpc]; exact ⟨rfl, rfl⟩)
    obtain ⟨acts, hcalm, hacts⟩ := hs'.reached
    have hfresh : s'.share.mmap.poisoned = false := by
      rw [hs'.mmap]
      rfl
    refine ⟨acts, s', hcalm, hacts, hfresh, funext fun u => hdone u (Finset.mem_univ u), hs'.lost,
      ?_⟩
    rw [hs'.recorded]
    omega

/-- Three levels of callbacks of one thread let four faults through although `max_sigbus` is 1. -/
theorem faults_before_poisoning_nested :
    ∃ (acts : List (Unit × ReentryAct)) (s : Reentry Unit),
      run (Reentry.step 4096) acts (.init Unit (heard.finish ⟨0x10000, 4096, false⟩)) = some s ∧
      s.share.mmap.poisoned = false ∧ s.share.recorded = 4 := by
  obtain ⟨-, hattained⟩ := faults_before_poisoning (τ := Unit) 4096 heard
    ⟨0x10000, 4096, false⟩ rfl (by decide)
  obtain ⟨acts, s, -, hrun, hfresh, -, -, hcount⟩ := hattained fun _ => 3
  have hlimit : heard.maxSigbus.toNat = 1 := rfl
  rw [hlimit, Finset.univ_unique, Finset.sum_singleton] at hcount
  exact ⟨acts, s, hrun, hfresh, by omega⟩

end MmapShield.Analysis.Burst
