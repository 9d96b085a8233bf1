import MmapShield.Analysis.TheoremPrefetch
import MmapShield.Computation.Pages
import MmapShield.Model.Advice
import MmapShield.Model.TimedPrefetch

/-!
# The strides of the two probes

`probe` and `probe_pages` walk over a range in strides of a page, from the offset on, which
need not be the start of a page. A walk of `rounds` strides comes to the end of the range.
`probeLoop_eq` says that the loop of `probe` is the touch of one byte at each of them, and
`Whole.eq` that an uncancelled loop of the worker that returned `Ok(())` has made all of them.
-/

set_option autoImplicit false

namespace MmapShield.Analysis

open MmapShield.Computation MmapShield.Model

/-- The number of strides that a loop over `len` bytes makes. -/
def rounds (page len : Usize) : ℕ := len.toNat ⌈/⌉ page.toNat

/-- The position after `i` strides. -/
def stride (page offset : Usize) (i : ℕ) : Usize := offset + UInt64.ofNat i * page

section Strides

variable {page offset len : Usize} {i : ℕ}

/-- INTERNAL: the loop starts at the offset. -/
theorem stride_zero : stride page offset 0 = offset := by
  rw [stride, show UInt64.ofNat 0 = 0 from rfl, UInt64.zero_mul, UInt64.add_zero]

/-- INTERNAL: one round more is one page more. -/
theorem stride_succ : stride page offset i + page = stride page offset (i + 1) :=
  add_mul_succ offset page i

/-- INTERNAL: a stride before the last starts inside the range. -/
theorem lt_rounds_iff (hpage : 0 < page.toNat) (len : Usize) (i : ℕ) :
    i < rounds page len ↔ i * page.toNat < len.toNat := by
  rw [rounds, ← not_le, ceilDiv_le_iff_le_smul hpage, smul_eq_mul, not_le, Nat.mul_comm]

/-- INTERNAL: no page has fewer bytes than one, so there are no more rounds than bytes. -/
theorem rounds_le (hpage : 0 < page.toNat) (len : Usize) : rounds page len ≤ len.toNat := by
  rw [rounds, ceilDiv_le_iff_le_smul hpage]
  exact Nat.le_mul_of_pos_left _ hpage

/-- INTERNAL: **no stride wraps**, up to the one that leaves the range. -/
theorem stride_toNat (hpage : 0 < page.toNat)
    (hroom : offset.toNat + len.toNat + page.toNat ≤ 2 ^ 64) (hi : i ≤ rounds page len) :
    (stride page offset i).toNat = offset.toNat + i * page.toNat := by
  have hbound : i * page.toNat < len.toNat + page.toNat := by
    rcases Nat.eq_zero_or_pos i with hzero | hpos
    · rw [hzero]
      omega
    · have hlast := (lt_rounds_iff hpage len (i - 1)).mp (by omega)
      have hmul : i * page.toNat = (i - 1) * page.toNat + page.toNat := by
        rw [← Nat.succ_mul, Nat.succ_eq_add_one, Nat.sub_add_cancel hpos]
      omega
  have hi64 : i < 2 ^ 64 := by
    have hle := Nat.le_mul_of_pos_right i hpage
    omega
  have hword : (UInt64.ofNat i).toNat = i := UInt64.toNat_ofNat_of_lt' hi64
  have hmul : (UInt64.ofNat i * page).toNat = i * page.toNat := by
    rw [UInt64.toNat_mul, hword]
    apply Nat.mod_eq_of_lt
    omega
  rw [stride, toNat_add_of_fits (by omega), hmul]

/-- INTERNAL: the condition of the loops.
SOURCE: mmap/mod.rs:676, mmap/prefetch.rs:44 -/
theorem stride_lt_stop (hpage : 0 < page.toNat)
    (hroom : offset.toNat + len.toNat + page.toNat ≤ 2 ^ 64) (hi : i ≤ rounds page len) :
    stride page offset i < offset + len ↔ i < rounds page len := by
  rw [lt_rounds_iff hpage, UInt64.lt_iff_toNat_lt, stride_toNat hpage hroom hi,
    toNat_add_of_fits (by omega)]
  omega

end Strides

/-! ## The loop of `probe` -/

/-- INTERNAL: the touches of an access are among those it was going to make. -/
theorem mem_touchAll {mem : Memory} {addrs : List Usize} {n : ℕ} {addr : Usize}
    (h : addr ∈ (mem.touchAll n addrs).1) : addr ∈ addrs := by
  induction addrs generalizing n with
  | nil => exact h
  | cons first rest ih =>
      simp only [Memory.touchAll] at h
      split at h
      · rw [List.mem_singleton.mp h]
        exact List.mem_cons_self
      · rcases List.mem_cons.mp h with heq | hrest
        · rw [heq]
          exact List.mem_cons_self
        · exact List.mem_cons_of_mem _ (ih hrest)

/-- INTERNAL: touches that end well are all made, and none faults. -/
theorem touchAll_ok {mem : Memory} {addrs : List Usize} {n : ℕ}
    (h : (mem.touchAll n addrs).2 = .ok ()) :
    (mem.touchAll n addrs).1 = addrs ∧ ∀ i addr, addrs[i]? = some addr →
      mem.faults (n + i) addr = false := by
  induction addrs generalizing n with
  | nil => simp [Memory.touchAll]
  | cons first rest ih =>
      simp only [Memory.touchAll] at h ⊢
      split at h
      · cases h
      · rename_i hfirst
        obtain ⟨hall, hquiet⟩ := ih h
        rw [if_neg hfirst]
        refine ⟨by rw [hall], ?_⟩
        intro i addr hi
        cases i with
        | zero =>
          rw [List.getElem?_cons_zero, Option.some.injEq] at hi
          rw [← hi, Nat.add_zero, ← Bool.not_eq_true]
          exact hfirst
        | succ i =>
          rw [List.getElem?_cons_succ] at hi
          rw [Nat.add_comm i 1, ← Nat.add_assoc]
          exact hquiet i addr hi

/-- INTERNAL: touches that do not end well end at one that faults. -/
theorem touchAll_error {mem : Memory} {addrs : List Usize} {n : ℕ} {addr : Usize}
    (h : (mem.touchAll n addrs).2 = .error addr) :
    addr ∈ addrs ∧ ∃ m, mem.faults m addr = true := by
  induction addrs generalizing n with
  | nil => cases h
  | cons first rest ih =>
      simp only [Memory.touchAll] at h
      split at h
      · rename_i hfirst
        cases h
        exact ⟨List.mem_cons_self, n, hfirst⟩
      · obtain ⟨hmem, hfault⟩ := ih h
        exact ⟨List.mem_cons_of_mem _ hmem, hfault⟩

/-- INTERNAL: the bounds check of the accessors is that of the other operations.
SOURCE: mmap/mod.rs:1022-1037 -/
theorem checkBounds_eq (self : SafeMmap) (offset len : Usize) :
    self.checkBounds offset len =
      if self.raw.exceeds offset len then .error (.outOfBounds offset len self.raw.len)
      else .ok () := by
  unfold SafeMmap.checkBounds RawMmap.exceeds
  cases checkedAdd offset len with
  | none => rfl
  | some stop => simp only [Option.elim_some, decide_eq_true_eq]

/-- INTERNAL: a range inside of the mapping passes the check.
SOURCE: mmap/mod.rs:1022-1037 -/
theorem checkBounds_inside {self : SafeMmap} {offset len : Usize}
    (hin : offset.toNat + len.toNat ≤ self.raw.len.toNat) :
    self.checkBounds offset len = .ok () := by
  rw [checkBounds_eq, RawMmap.exceeds_eq_false_iff.mpr hin]
  rfl

/-- INTERNAL: a read through a guard that its check refuses.
SOURCE: mmap/guard.rs:99-108 -/
theorem guardRead_refused {ρ : Type} {raw : RawMmap} {offset len : Usize} (mem : Memory) (n : ℕ)
    (f : Closure ρ) (hcheck : raw.exceeds offset len = true) :
    ReadGuard.read raw mem n offset len f = ⟨.error (.outOfBounds offset len raw.len), [], 0⟩ :=
  if_pos hcheck

/-- INTERNAL: **a read through a guard that its check lets through** is the touches of the
closure.
SOURCE: mmap/guard.rs:110-128 -/
theorem guardRead_passed {ρ : Type} {raw : RawMmap} {offset len : Usize} (mem : Memory) (n : ℕ)
    (f : Closure ρ) (hcheck : raw.exceeds offset len = false) :
    ReadGuard.read raw mem n offset len f =
      ⟨((mem.touchAll n ((f.touches len).map fun i => raw.ptr + offset + i)).2.mapError
          AccessError.sigbus).map fun _ => f.value (mem.slice (raw.ptr + offset) len),
        (mem.touchAll n ((f.touches len).map fun i => raw.ptr + offset + i)).1, 1⟩ := by
  unfold RawMmap.exceeds at hcheck
  unfold ReadGuard.read
  rw [hcheck, if_neg Bool.false_ne_true]
  dsimp only
  split
  · rename_i touched heq
    rw [heq]
    rfl
  · rename_i touched addr heq
    rw [heq]
    rfl

/-- INTERNAL: a read of one byte through a guard is one touch.
SOURCE: mmap/mod.rs:677, mmap/guard.rs:93-128 -/
theorem read_firstByte {raw : RawMmap} {pos : Usize} (mem : Memory) (n : ℕ)
    (hin : raw.exceeds pos 1 = false) :
    ReadGuard.read raw mem n pos 1 SafeMmap.firstByte =
      if mem.faults n (raw.ptr + pos) then
        ⟨.error (.sigbus (raw.ptr + pos)), [raw.ptr + pos], 1⟩
      else ⟨.ok ((mem.slice (raw.ptr + pos) 1).headD 0), [raw.ptr + pos], 1⟩ := by
  have htouches : ((SafeMmap.firstByte.touches 1).map fun i => raw.ptr + pos + i) =
      [raw.ptr + pos] := by
    rw [show SafeMmap.firstByte.touches 1 = [0] from rfl, List.map_singleton, UInt64.add_zero]
  rw [guardRead_passed mem n SafeMmap.firstByte hin, htouches, Memory.touchAll]
  cases hfault : mem.faults n (raw.ptr + pos) with
  | true => rfl
  | false => rfl

/-- The addresses that a probe of the range is going to touch. -/
def strideAddrs (raw : RawMmap) (page offset : Usize) (first count : ℕ) : List Usize :=
  (List.range' first count).map fun i => raw.ptr + stride page offset i

/-- INTERNAL: the address of a stride inside the mapping. -/
theorem stride_addr {raw : RawMmap} {page offset len : Usize} {i : ℕ} (hpage : 0 < page.toNat)
    (hroom : raw.len.toNat + page.toNat ≤ 2 ^ 64)
    (hspace : raw.ptr.toNat + raw.len.toNat ≤ 2 ^ 64)
    (hin : offset.toNat + len.toNat ≤ raw.len.toNat) (hi : i < rounds page len) :
    (raw.ptr + stride page offset i).toNat = raw.ptr.toNat + (offset.toNat + i * page.toNat) := by
  have hpos := stride_toNat hpage
    (show offset.toNat + len.toNat + page.toNat ≤ 2 ^ 64 by omega) hi.le
  have hbyte := (lt_rounds_iff hpage len i).mp hi
  rw [toNat_add_of_fits (by omega), hpos]

/-- INTERNAL: **the loop of `probe` touches one byte at each stride**, up to the first that
faults. The induction is on the strides that are left.
SOURCE: mmap/mod.rs:676-683 -/
theorem probeLoop_eq (self : SafeMmap) {page offset len : Usize} (mem : Memory)
    (hpage : 0 < page.toNat) (hroom : self.raw.len.toNat + page.toNat ≤ 2 ^ 64)
    (hin : offset.toNat + len.toNat ≤ self.raw.len.toNat) (left : ℕ) {i fuel n : ℕ}
    (hi : i + left = rounds page len) (hfuel : left < fuel) :
    self.probeLoop page mem (offset + len) fuel n (stride page offset i) =
      some (((mem.touchAll n (strideAddrs self.raw page offset i left)).2.mapError .sigbus),
        (mem.touchAll n (strideAddrs self.raw page offset i left)).1) := by
  have hfits : offset.toNat + len.toNat + page.toNat ≤ 2 ^ 64 := by omega
  induction left generalizing i fuel n with
  | zero =>
      obtain ⟨fuel, rfl⟩ : ∃ m, fuel = m + 1 := ⟨fuel - 1, by omega⟩
      have hstop : ¬ stride page offset i < offset + len := by
        rw [stride_lt_stop hpage hfits (by omega)]
        omega
      unfold SafeMmap.probeLoop
      rw [if_neg hstop]
      rfl
  | succ left ih =>
      obtain ⟨fuel, rfl⟩ : ∃ m, fuel = m + 1 := ⟨fuel - 1, by omega⟩
      have hlt : i < rounds page len := by omega
      have hstop : stride page offset i < offset + len := by
        rw [stride_lt_stop hpage hfits (by omega)]
        exact hlt
      have hinside := RawMmap.exceeds_one hstop (add_le_of_fits hin)
      have haddrs : strideAddrs self.raw page offset i (left + 1) =
          (self.raw.ptr + stride page offset i) ::
            strideAddrs self.raw page offset (i + 1) left := rfl
      unfold SafeMmap.probeLoop
      rw [if_pos hstop, read_firstByte mem n hinside, haddrs, Memory.touchAll]
      by_cases hfault : mem.faults n (self.raw.ptr + stride page offset i) = true
      · simp only [hfault, if_true]
        rfl
      · simp only [hfault, Bool.false_eq_true, if_false]
        rw [stride_succ, ih (by omega) (by omega)]
        rfl

/-- INTERNAL: **`probe` of a range inside the mapping** is these touches, and a fault is
recorded.
SOURCE: mmap/mod.rs:668-686 -/
theorem probe_eq {self : SafeMmap} {page offset len : Usize} (mem : Memory)
    (hclean : self.poisoned = false) (hpage : 0 < page.toNat)
    (hroom : self.raw.len.toNat + page.toNat ≤ 2 ^ 64)
    (hin : offset.toNat + len.toNat ≤ self.raw.len.toNat) {fuel : ℕ}
    (hfuel : rounds page len < fuel) :
    self.probe page mem fuel offset len =
      some (self.settle
        ((mem.touchAll 0 (strideAddrs self.raw page offset 0 (rounds page len))).2.mapError .sigbus)
        (mem.touchAll 0 (strideAddrs self.raw page offset 0 (rounds page len))).1 0) := by
  have hloop := probeLoop_eq self mem hpage hroom hin (rounds page len) (i := 0) (n := 0)
    (Nat.zero_add _) hfuel
  rw [stride_zero] at hloop
  unfold SafeMmap.probe
  rw [SafeMmap.checkPoisoned_clean hclean, checkBounds_inside hin]
  simp only
  rw [hloop, Option.map_some]
  cases (mem.touchAll 0 (strideAddrs self.raw page offset 0 (rounds page len))).2 with
  | ok value => rfl
  | error addr => rfl

/-! ## The loop of the worker -/

section Worker

variable {page : Usize} {call : PrefetchCall} {s s' : Prefetch} {k : ℕ}

/-- INTERNAL: a loop whose positions are all inside the range has not made all strides.
SOURCE: mmap/prefetch.rs:44 -/
theorem lt_rounds_of_inside (hpage : 0 < page.toNat)
    (hroom : call.offset.toNat + call.len.toNat + page.toNat ≤ 2 ^ 64)
    (hinside : ∀ i ≤ k, position page call i < call.offset + call.len) :
    k < rounds page call.len := by
  by_contra hle
  have hlast := hinside (rounds page call.len) (Nat.le_of_not_lt hle)
  exact lt_irrefl _ ((stride_lt_stop hpage hroom le_rfl).mp hlast)

/-- INTERNAL: **a whole loop made every stride**, and no touch faulted.
SOURCE: mmap/prefetch.rs:35-66 -/
theorem Whole.eq {touches : List Touch} (h : Whole page call touches) (hpage : 0 < page.toNat)
    (hroom : call.offset.toNat + call.len.toNat + page.toNat ≤ 2 ^ 64) :
    touches = (List.range (rounds page call.len)).map (goodTouch page call) := by
  obtain ⟨k, hwalked, hstop⟩ := h
  have hle : k ≤ rounds page call.len := by
    by_contra hlt
    have hlast := hwalked.inside (rounds page call.len) (by omega)
    exact lt_irrefl _ ((stride_lt_stop hpage hroom le_rfl).mp hlast)
  have hge : ¬ k < rounds page call.len := by
    intro hlt
    exact hstop ((stride_lt_stop hpage hroom hle).mpr hlt)
  rw [hwalked.touches, Nat.le_antisymm hle (Nat.le_of_not_lt hge)]

/-- INTERNAL: **only a touch of the worker adds to the touches.**
SOURCE: mmap/prefetch.rs:50-62 -/
theorem step_touches {act : PrefetchAct} (hstep : Prefetch.step page call act s = some s') :
    s'.touches = s.touches ∨ ∃ fault pos, act = .touch fault ∧ s.worker = .touch pos ∧
      s'.touches = s.touches ++ [⟨call.basePtr + pos, fault, s.mapped⟩] := by
  cases Prefetch.step_move hstep with
  | touch fault pos hw => exact Or.inr ⟨fault, pos, rfl, hw, rfl⟩
  | _ => exact Or.inl rfl

/-- INTERNAL: **every touch of the worker is at a stride inside the range**, in every run.
SOURCE: mmap/prefetch.rs:35-66 -/
theorem touches_at_strides (hpage : 0 < page.toNat)
    (hroom : call.offset.toNat + call.len.toNat + page.toNat ≤ 2 ^ 64)
    {acts : List PrefetchAct} (h : run (Prefetch.step page call) acts .init = some s) :
    ∀ touch ∈ s.touches, ∃ i < rounds page call.len,
      touch.addr = call.basePtr + stride page call.offset i := by
  have hinv : Protocol page call s ∧ ∀ touch ∈ s.touches, ∃ i < rounds page call.len,
      touch.addr = call.basePtr + stride page call.offset i := by
    refine reach_invariant (fun s => Protocol page call s ∧ ∀ touch ∈ s.touches,
      ∃ i < rounds page call.len, touch.addr = call.basePtr + stride page call.offset i)
      ?_ acts ⟨protocol_init page call, by simp [Prefetch.init]⟩ h
    rintro act u u' ⟨hprotocol, hold⟩ hstep
    refine ⟨hprotocol.step act u u' hstep, ?_⟩
    rcases step_touches hstep with hsame | ⟨fault, pos, -, hw, hnew⟩
    · rw [hsame]
      exact hold
    · have hworker := hprotocol.worker
      rw [hw] at hworker
      obtain ⟨k, hpos, hwalked, hlt⟩ := hworker
      have hk : k < rounds page call.len := by
        apply lt_rounds_of_inside hpage hroom
        intro i hi
        rcases Nat.lt_or_eq_of_le hi with hless | heq
        · exact hwalked.inside i hless
        · rw [heq]
          exact hlt
      intro touch hmem
      rw [hnew] at hmem
      rcases List.mem_append.mp hmem with hbefore | hlast
      · exact hold touch hbefore
      · rw [List.mem_singleton.mp hlast, hpos]
        exact ⟨k, hk, rfl⟩
  exact hinv.2

end Worker

end MmapShield.Analysis
