import MmapShield.Analysis.ProbeLoop
import MmapShield.Analysis.TheoremFallback
import MmapShield.Analysis.TheoremRounding

/-!
# Bounds checks over all words

Ten operations carry a copy of the same bounds check. `BoundsExact` and `CallsExact` say of an
access and of an operation with a system call that it refuses a range exactly when the
unbounded sum of its offset and its length is larger than the mapping, and then does nothing;
`AddressesExact` says that no address of an accepted range wraps. `bounds_exact` is all of it
for one mapping.
-/

set_option autoImplicit false

namespace MmapShield.Analysis

open MmapShield.Computation MmapShield.Model

variable {ρ : Type}

/-- An access refuses the ranges that are not inside the mapping, before it touches a byte or
starts a closure, and touches bytes of the range only. -/
structure BoundsExact (raw : RawMmap) (offset len : Usize) (result : Except AccessError ρ)
    (touched : List Usize) (closures : ℕ) : Prop where
  refuses : raw.len.toNat < offset.toNat + len.toNat →
    result = .error (.outOfBounds offset len raw.len) ∧ touched = [] ∧ closures = 0
  accepts : offset.toNat + len.toNat ≤ raw.len.toNat →
    (∀ o l m, result ≠ .error (.outOfBounds o l m)) ∧
      ∀ addr ∈ touched, raw.ptr.toNat + offset.toNat ≤ addr.toNat ∧
        addr.toNat < raw.ptr.toNat + offset.toNat + len.toNat

/-- An operation refuses the ranges that are not inside the mapping, before its system call. -/
structure CallsExact (raw : RawMmap) (message : String) (offset len : Usize)
    (o : RangeOutcome ρ) : Prop where
  refuses : raw.len.toNat < offset.toNat + len.toNat →
    o.result = .error (.new .invalidInput message) ∧ o.calls = []
  accepts : offset.toNat + len.toNat ≤ raw.len.toNat → o.calls.length = 1

/-- No address and no loop index that an operation on the range computes wraps: the end of the
range, the pointers to its first byte and to the start of its first page, the addresses of its
bytes, the positions of a probe and the roundings.
SOURCE: mmap/guard.rs:110-115, mmap/mod.rs:567-577, 674-683, 821-831, 919, 946,
mmap/prefetch.rs:44-63, sys/mmap.rs:445-447, 484-486, 532-538 -/
structure AddressesExact (raw : RawMmap) (page offset len : Usize) : Prop where
  stop : (offset + len).toNat = offset.toNat + len.toNat
  start : (raw.ptr + offset).toNat = raw.ptr.toNat + offset.toNat
  bytes : ∀ i : Usize, i < len →
    (raw.ptr + offset + i).toNat = raw.ptr.toNat + offset.toNat + i.toNat
  positions : ∀ pos : Usize, offset ≤ pos → pos < offset + len →
    (raw.ptr + pos).toNat = raw.ptr.toNat + pos.toNat ∧
      (pos + page).toNat = pos.toNat + page.toNat
  rounded : NoWrap page offset len
  firstPage : (raw.ptr + alignedOffset page offset).toNat =
    raw.ptr.toNat + (alignedOffset page offset).toNat

section Accesses

variable {raw : RawMmap} {offset len : Usize}

/-- INTERNAL: an access that was refused by the check. -/
theorem boundsExact_refused (h : raw.exceeds offset len = true) :
    BoundsExact (ρ := ρ) raw offset len (.error (.outOfBounds offset len raw.len)) [] 0 := by
  rw [RawMmap.exceeds_eq_true_iff] at h
  refine ⟨fun _ => ⟨rfl, rfl, rfl⟩, ?_⟩
  intro hin
  omega

/-- INTERNAL: an access that the check has let through. -/
theorem boundsExact_passed (h : raw.exceeds offset len = false)
    {result : Except AccessError ρ} {touched : List Usize} {closures : ℕ}
    (hresult : ∀ o l m, result ≠ .error (.outOfBounds o l m))
    (htouched : ∀ addr ∈ touched, raw.ptr.toNat + offset.toNat ≤ addr.toNat ∧
      addr.toNat < raw.ptr.toNat + offset.toNat + len.toNat) :
    BoundsExact raw offset len result touched closures := by
  rw [RawMmap.exceeds_eq_false_iff] at h
  exact ⟨fun hout => absurd hout (Nat.not_lt.mpr h), fun _ => ⟨hresult, htouched⟩⟩

/-- INTERNAL: recording a fault changes neither the result nor the touches. -/
theorem boundsExact_settle (self : SafeMmap) {result : Except AccessError ρ}
    {touched : List Usize} {closures : ℕ}
    (h : BoundsExact raw offset len result touched closures) :
    BoundsExact raw offset len (self.settle result touched closures).result
      (self.settle result touched closures).touched
      (self.settle result touched closures).closures := by
  unfold SafeMmap.settle
  split <;> exact h

/-- INTERNAL: **the bytes of an accepted range** are at their addresses. -/
theorem byte_addr (hspace : raw.ptr.toNat + raw.len.toNat ≤ 2 ^ 64)
    (hin : offset.toNat + len.toNat ≤ raw.len.toNat) {i : Usize} (hi : i < len) :
    (raw.ptr + offset + i).toNat = raw.ptr.toNat + offset.toNat + i.toNat := by
  rw [UInt64.lt_iff_toNat_lt] at hi
  have hstart : (raw.ptr + offset).toNat = raw.ptr.toNat + offset.toNat := by
    apply toNat_add_of_fits
    omega
  rw [toNat_add_of_fits (by omega), hstart]

/-- INTERNAL: touches at indices of the range are inside it. -/
theorem touched_inside (hspace : raw.ptr.toNat + raw.len.toNat ≤ 2 ^ 64)
    (hin : offset.toNat + len.toNat ≤ raw.len.toNat) {indices : List Usize}
    (hindices : ∀ i ∈ indices, i < len) (mem : Memory) (n : ℕ) :
    ∀ addr ∈ (mem.touchAll n (indices.map fun i => raw.ptr + offset + i)).1,
      raw.ptr.toNat + offset.toNat ≤ addr.toNat ∧
        addr.toNat < raw.ptr.toNat + offset.toNat + len.toNat := by
  intro addr hmem
  obtain ⟨i, hi, rfl⟩ := List.mem_map.mp (mem_touchAll hmem)
  have hlt := hindices i hi
  rw [byte_addr hspace hin hlt]
  rw [UInt64.lt_iff_toNat_lt] at hlt
  omega

/-- INTERNAL: **a read through a guard.**
SOURCE: mmap/guard.rs:93-128 -/
theorem guardRead_bounds (hspace : raw.ptr.toNat + raw.len.toNat ≤ 2 ^ 64) (mem : Memory) (n : ℕ)
    (f : Closure ρ) :
    BoundsExact raw offset len (ReadGuard.read raw mem n offset len f).result
      (ReadGuard.read raw mem n offset len f).touched
      (ReadGuard.read raw mem n offset len f).closures := by
  cases hcheck : raw.exceeds offset len with
  | true =>
    rw [guardRead_refused mem n f hcheck]
    exact boundsExact_refused hcheck
  | false =>
    have hinside := RawMmap.exceeds_eq_false_iff.mp hcheck
    have htouched := touched_inside hspace hinside (f.inside len) mem n
    rw [guardRead_passed mem n f hcheck]
    refine boundsExact_passed hcheck ?_ htouched
    intro o l m hout
    cases hresult : (mem.touchAll n ((f.touches len).map fun i => raw.ptr + offset + i)).2 with
    | ok value =>
      rw [hresult] at hout
      cases hout
    | error addr =>
      rw [hresult] at hout
      cases hout

/-- INTERNAL: every index of a copy is inside its buffer. -/
theorem mem_wordsBelow : ∀ i ∈ wordsBelow len, i < len := by
  intro i h
  obtain ⟨m, hm, rfl⟩ := List.mem_map.mp h
  have hlt := List.mem_range.mp hm
  have hlen := UInt64.toNat_lt len
  rw [UInt64.lt_iff_toNat_lt, UInt64.toNat_ofNat_of_lt' (show _ < 2 ^ 64 by omega)]
  exact hlt

/-- INTERNAL: **a copy between the mapping and a buffer.**
SOURCE: mmap/mod.rs:567-585, 821-839 -/
theorem copy_bounds (self : SafeMmap) (hspace : self.raw.ptr.toNat + self.raw.len.toNat ≤ 2 ^ 64)
    (hcheck : self.raw.exceeds offset len = false) (mem : Memory) :
    BoundsExact self.raw offset len (self.copy mem (self.raw.ptr + offset) len).result
      (self.copy mem (self.raw.ptr + offset) len).touched
      (self.copy mem (self.raw.ptr + offset) len).closures := by
  have hinside := RawMmap.exceeds_eq_false_iff.mp hcheck
  have htouched := touched_inside hspace hinside mem_wordsBelow mem 0
  unfold SafeMmap.copy
  split
  · rename_i touched heq
    rw [heq] at htouched
    exact boundsExact_settle self (boundsExact_passed hcheck (by simp) htouched)
  · rename_i touched addr heq
    rw [heq] at htouched
    exact boundsExact_settle self (boundsExact_passed hcheck (by simp) htouched)

/-- INTERNAL: an operation that checks its range and makes one system call.
SOURCE: sys/mmap.rs:436-500, mmap/mod.rs:908-954 -/
theorem rangeCall_bounds (kernel : RangeKernel) (message : String) (call : RangeCall) :
    CallsExact raw message offset len (raw.rangeCall kernel message offset len call) := by
  refine ⟨?_, ?_⟩
  · intro hout
    have hcheck := RawMmap.exceeds_eq_true_iff.mpr hout
    unfold RawMmap.rangeCall
    rw [hcheck]
    exact ⟨rfl, rfl⟩
  · intro hin
    have hcheck := RawMmap.exceeds_eq_false_iff.mpr hin
    rw [RawMmap.rangeCall_calls hcheck]
    rfl

/-- INTERNAL: `mincore` checks its range as the others do.
SOURCE: sys/mmap.rs:523-553 -/
theorem mincore_bounds (page : Usize) (kernel : RangeKernel) :
    CallsExact raw "mincore range exceeds mapping length" offset len
      (raw.mincore page kernel offset len) := by
  refine ⟨?_, ?_⟩
  · intro hout
    have hcheck := RawMmap.exceeds_eq_true_iff.mpr hout
    unfold RawMmap.mincore
    rw [hcheck]
    exact ⟨rfl, rfl⟩
  · intro hin
    have hcheck := RawMmap.exceeds_eq_false_iff.mpr hin
    unfold RawMmap.mincore
    rw [hcheck, if_neg Bool.false_ne_true]
    dsimp only
    split <;> rfl

/-- INTERNAL: **the addresses of an accepted range**, when its start is an address.
SOURCE: mmap/guard.rs:110-115, sys/mmap.rs:445-447, 532-538 -/
theorem addresses_exact {page : Usize} {k : ℕ} (hpage : page.toNat = 2 ^ k)
    (hroom : raw.len.toNat + page.toNat < 2 ^ 64)
    (hspace : raw.ptr.toNat + raw.len.toNat ≤ 2 ^ 64)
    (hin : offset.toNat + len.toNat ≤ raw.len.toNat)
    (hstart : raw.ptr.toNat + offset.toNat ≠ 2 ^ 64) : AddressesExact raw page offset len := by
  have hwrap : NoWrap page offset len := noWrap_of_room hpage (by omega)
  have hdown := hwrap.shift
  rw [UInt64.le_iff_toNat_le] at hdown
  refine ⟨hwrap.stop, ?_, fun i hi => byte_addr hspace hin hi, ?_, hwrap, ?_⟩
  · apply toNat_add_of_fits
    omega
  · intro pos hge hlt
    rw [UInt64.lt_iff_toNat_lt, hwrap.stop] at hlt
    exact ⟨toNat_add_of_fits (by omega), toNat_add_of_fits (by omega)⟩
  · apply toNat_add_of_fits
    omega

end Accesses

section Mapping

variable {self : SafeMmap} {page offset len : Usize}

/-- INTERNAL: an access that the check of a clean mapping refuses. -/
theorem refuse_bounds (h : self.raw.exceeds offset len = true) :
    BoundsExact self.raw offset len
      (self.refuse (ρ := ρ) (.outOfBounds offset len self.raw.len)).result
      (self.refuse (ρ := ρ) (.outOfBounds offset len self.raw.len)).touched
      (self.refuse (ρ := ρ) (.outOfBounds offset len self.raw.len)).closures :=
  boundsExact_refused h

/-- INTERNAL: an access that ends before it reaches the mapping, for another reason. -/
theorem refuse_other (h : self.raw.exceeds offset len = false) {e : AccessError}
    (he : ∀ o l m, e ≠ .outOfBounds o l m) :
    BoundsExact self.raw offset len (self.refuse (ρ := ρ) e).result
      (self.refuse (ρ := ρ) e).touched (self.refuse (ρ := ρ) e).closures := by
  apply boundsExact_passed h
  · intro o l m heq
    exact he o l m (Except.error.inj heq)
  · intro addr hmem
    cases hmem

/-- SOURCE: mmap/mod.rs:556-585 -/
theorem write_bounds (hclean : self.poisoned = false)
    (hspace : self.raw.ptr.toNat + self.raw.len.toNat ≤ 2 ^ 64) (mem : Memory) (data : Slice) :
    BoundsExact self.raw offset data.len (self.write mem offset data).result
      (self.write mem offset data).touched (self.write mem offset data).closures := by
  unfold SafeMmap.write
  rw [SafeMmap.checkPoisoned_clean hclean, checkBounds_eq]
  cases hcheck : self.raw.exceeds offset data.len with
  | true => exact refuse_bounds hcheck
  | false =>
    cases hptr : self.raw.asMutPtr with
    | none => exact refuse_other hcheck (by simp)
    | some dst =>
      have hdst : dst = self.raw.ptr := by
        unfold RawMmap.asMutPtr at hptr
        split at hptr
        · exact (Option.some.inj hptr).symm
        · cases hptr
      rw [hdst]
      exact copy_bounds self hspace hcheck mem

/-- SOURCE: mmap/mod.rs:815-839 -/
theorem readInto_bounds (hclean : self.poisoned = false)
    (hspace : self.raw.ptr.toNat + self.raw.len.toNat ≤ 2 ^ 64) (mem : Memory) (buf : Slice) :
    BoundsExact self.raw offset buf.len (self.readInto mem offset buf).result
      (self.readInto mem offset buf).touched (self.readInto mem offset buf).closures := by
  unfold SafeMmap.readInto
  rw [SafeMmap.checkPoisoned_clean hclean, checkBounds_eq]
  cases hcheck : self.raw.exceeds offset buf.len with
  | true => exact refuse_bounds hcheck
  | false => exact copy_bounds self hspace hcheck mem

/-- INTERNAL: a stride is inside the range. -/
theorem stride_inside (hpage : 0 < page.toNat)
    (hroom : self.raw.len.toNat + page.toNat ≤ 2 ^ 64)
    (hspace : self.raw.ptr.toNat + self.raw.len.toNat ≤ 2 ^ 64)
    (hin : offset.toNat + len.toNat ≤ self.raw.len.toNat) {i : ℕ} (hi : i < rounds page len) :
    self.raw.ptr.toNat + offset.toNat ≤ (self.raw.ptr + stride page offset i).toNat ∧
      (self.raw.ptr + stride page offset i).toNat <
        self.raw.ptr.toNat + offset.toNat + len.toNat := by
  have hbyte := (lt_rounds_iff hpage len i).mp hi
  rw [stride_addr hpage hroom hspace hin hi]
  omega

/-- INTERNAL: **`probe` returns**, and touches bytes of the range only.
SOURCE: mmap/mod.rs:668-686 -/
theorem probe_bounds (hclean : self.poisoned = false) (hpage : 0 < page.toNat)
    (hroom : self.raw.len.toNat + page.toNat ≤ 2 ^ 64)
    (hspace : self.raw.ptr.toNat + self.raw.len.toNat ≤ 2 ^ 64) (mem : Memory) {fuel : ℕ}
    (hfuel : rounds page len < fuel) :
    ∃ o, self.probe page mem fuel offset len = some o ∧
      BoundsExact self.raw offset len o.result o.touched o.closures := by
  cases hcheck : self.raw.exceeds offset len with
  | true =>
    unfold SafeMmap.probe
    rw [SafeMmap.checkPoisoned_clean hclean, checkBounds_eq, hcheck]
    exact ⟨_, rfl, refuse_bounds hcheck⟩
  | false =>
    have hin := RawMmap.exceeds_eq_false_iff.mp hcheck
    have htouched : ∀ addr ∈ (mem.touchAll 0
        (strideAddrs self.raw page offset 0 (rounds page len))).1,
        self.raw.ptr.toNat + offset.toNat ≤ addr.toNat ∧
          addr.toNat < self.raw.ptr.toNat + offset.toNat + len.toNat := by
      intro addr hmem
      obtain ⟨i, hi, rfl⟩ := List.mem_map.mp (mem_touchAll hmem)
      exact stride_inside hpage hroom hspace hin (by simpa using hi)
    rw [probe_eq mem hclean hpage hroom hin hfuel]
    refine ⟨_, rfl, ?_⟩
    cases ht : (mem.touchAll 0 (strideAddrs self.raw page offset 0 (rounds page len))).2 with
    | ok value => exact boundsExact_passed hcheck (fun _ _ _ h => by cases h) htouched
    | error addr => exact boundsExact_passed hcheck (fun _ _ _ h => by cases h) htouched

/-- INTERNAL: **a prefetch that returned**, under any schedule.
SOURCE: mmap/mod.rs:766-787, mmap/prefetch.rs:35-66 -/
theorem timedPrefetch_bounds (hclean : self.poisoned = false) (hpage : 0 < page.toNat)
    (hroom : self.raw.len.toNat + page.toNat ≤ 2 ^ 64)
    (hspace : self.raw.ptr.toNat + self.raw.len.toNat ≤ 2 ^ 64) (timeout : ℕ)
    (acts : List PrefetchAct) :
    (self.raw.len.toNat < offset.toNat + len.toNat →
      (self.timedPrefetch page offset len timeout acts).isSome = true) ∧
    ∀ o, self.timedPrefetch page offset len timeout acts = some o →
      BoundsExact self.raw offset len o.result o.touched o.closures := by
  have hgate := SafeMmap.checkPoisoned_clean hclean
  cases hcheck : self.raw.exceeds offset len with
  | true =>
    have hbounds : self.checkBounds offset len =
        .error (.outOfBounds offset len self.raw.len) := by
      rw [checkBounds_eq, hcheck]
      rfl
    unfold SafeMmap.timedPrefetch
    rw [hgate, hbounds]
    refine ⟨fun _ => rfl, ?_⟩
    intro o ho
    rw [← Option.some.inj ho]
    exact refuse_bounds hcheck
  | false =>
    have hin := RawMmap.exceeds_eq_false_iff.mp hcheck
    have hbounds := checkBounds_inside hin
    refine ⟨fun hout => by omega, ?_⟩
    intro o ho
    unfold SafeMmap.timedPrefetch at ho
    rw [hgate, hbounds] at ho
    simp only at ho
    split at ho
    · cases ho
    · rename_i s hrun
      split at ho
      · rename_i result hcaller
        have htouched : ∀ addr ∈ s.touches.map Touch.addr,
            self.raw.ptr.toNat + offset.toNat ≤ addr.toNat ∧
              addr.toNat < self.raw.ptr.toNat + offset.toNat + len.toNat := by
          intro addr hmem
          obtain ⟨touch, htouch, rfl⟩ := List.mem_map.mp hmem
          obtain ⟨i, hi, haddr⟩ := touches_at_strides hpage
            (show offset.toNat + len.toNat + page.toNat ≤ 2 ^ 64 by omega) hrun touch htouch
          rw [haddr]
          exact stride_inside hpage hroom hspace hin hi
        have hresult : ∀ o l m, result ≠ .error (.outOfBounds o l m) := by
          have hprotocol := reach_invariant (Protocol page (self.prefetchCall offset len timeout))
            Protocol.step acts (protocol_init page _) hrun
          have hok := hprotocol.caller
          rw [hcaller] at hok
          rcases hok.2 with ⟨htimeout, -⟩ | ⟨-, hgenuine⟩
          · rw [htimeout]
            intro o l m heq
            cases heq
          · intro o l m heq
            rw [heq] at hgenuine
            exact hgenuine
        rw [← Option.some.inj ho]
        unfold SafeMmap.prefetchWithTimeout
        rw [hgate, hbounds]
        simp only
        split
        · exact boundsExact_settle self (boundsExact_passed hcheck (by simp) htouched)
        · exact boundsExact_passed hcheck (by simp) htouched
        · exact boundsExact_passed hcheck hresult htouched
      · cases ho

/-- INTERNAL: **a read of a range of offsets.** The difference of an inverted range wraps, and
so does the sum of the check, which then refuses it.
SOURCE: mmap/mod.rs:503-518 -/
theorem read_bounds (hclean : self.poisoned = false)
    (hspace : self.raw.ptr.toNat + self.raw.len.toNat ≤ 2 ^ 64) (mem : Memory)
    (start stop : Usize) (f : Closure ρ) :
    (¬ (start ≤ stop ∧ stop ≤ self.raw.len) →
      (self.read mem start stop f).result =
          .error (.outOfBounds start (stop - start) self.raw.len) ∧
        (self.read mem start stop f).touched = [] ∧ (self.read mem start stop f).closures = 0) ∧
    (start ≤ stop ∧ stop ≤ self.raw.len →
      (∀ o l m, (self.read mem start stop f).result ≠ .error (.outOfBounds o l m)) ∧
        ∀ addr ∈ (self.read mem start stop f).touched,
          self.raw.ptr.toNat + start.toNat ≤ addr.toNat ∧
            addr.toNat < self.raw.ptr.toNat + stop.toNat) := by
  have hread : BoundsExact self.raw start (stop - start) (self.read mem start stop f).result
      (self.read mem start stop f).touched (self.read mem start stop f).closures := by
    unfold SafeMmap.read
    rw [SafeMmap.checkPoisoned_clean hclean]
    exact boundsExact_settle self (guardRead_bounds hspace mem 0 f)
  have hcheck : self.raw.exceeds start (stop - start) =
      decide (¬ (start ≤ stop ∧ stop ≤ self.raw.len)) := range_check start stop self.raw.len
  rw [RawMmap.exceeds_eq] at hcheck
  have hiff := decide_eq_decide.mp hcheck
  refine ⟨fun hout => hread.refuses (hiff.mpr hout), ?_⟩
  intro hinside
  have hle : start.toNat + (stop - start).toNat ≤ self.raw.len.toNat := by
    by_contra hgt
    exact hiff.mp (by omega) hinside
  obtain ⟨hresult, htouched⟩ := hread.accepts hle
  have hsub := toNat_sub_of_ge hinside.1
  refine ⟨hresult, ?_⟩
  intro addr hmem
  obtain ⟨hge, hlt⟩ := htouched addr hmem
  have hstop := hinside.1
  rw [UInt64.le_iff_toNat_le] at hstop
  omega

end Mapping

/-- RESULT: **the bounds checks are exact over all words.** On a mapping that is not poisoned,
every accessor refuses a range with `OutOfBounds`, and every other operation with `InvalidInput`,
exactly when the unbounded sum of offset and length is larger than the mapping, and then nothing
is touched, no closure runs and no system call is made. Otherwise the touched addresses are
those of the range, and no address or loop index wraps, with one exception: the pointer to the
end of a mapping that ends with the address space, which only an empty range at its end
computes. A read of offsets refuses the ranges that are inverted or end after the mapping.
SOURCE: mmap/mod.rs:503-585, 668-787, 815-954, 1022-1037, mmap/guard.rs:93-128,
sys/mmap.rs:436-553 -/
theorem bounds_exact (self : SafeMmap) (page : Usize) (k : ℕ) (hclean : self.poisoned = false)
    (hpage : page.toNat = 2 ^ k) (hroom : self.raw.len.toNat + page.toNat < 2 ^ 64)
    (hspace : self.raw.ptr.toNat + self.raw.len.toNat ≤ 2 ^ 64) (offset len : Usize) :
    (∀ mem n (f : Closure ρ),
      BoundsExact self.raw offset len (ReadGuard.read self.raw mem n offset len f).result
        (ReadGuard.read self.raw mem n offset len f).touched
        (ReadGuard.read self.raw mem n offset len f).closures) ∧
    (∀ mem data, BoundsExact self.raw offset data.len (self.write mem offset data).result
      (self.write mem offset data).touched (self.write mem offset data).closures) ∧
    (∀ mem buf, BoundsExact self.raw offset buf.len (self.readInto mem offset buf).result
      (self.readInto mem offset buf).touched (self.readInto mem offset buf).closures) ∧
    (∀ mem fuel, len.toNat < fuel → ∃ o, self.probe page mem fuel offset len = some o ∧
      BoundsExact self.raw offset len o.result o.touched o.closures) ∧
    (∀ timeout acts,
      (self.raw.len.toNat < offset.toNat + len.toNat →
        (self.timedPrefetch page offset len timeout acts).isSome = true) ∧
      ∀ o, self.timedPrefetch page offset len timeout acts = some o →
        BoundsExact self.raw offset len o.result o.touched o.closures) ∧
    (∀ kernel advice, CallsExact self.raw "advise range exceeds mapping length" offset len
      (self.adviseRange page kernel advice offset len)) ∧
    (∀ kernel asyncFlush, CallsExact self.raw "flush range exceeds mapping length" offset len
      (self.flush page kernel offset len asyncFlush)) ∧
    (∀ kernel, CallsExact self.raw "mincore range exceeds mapping length" offset len
      (self.residentPages page kernel offset len)) ∧
    (∀ kernel, CallsExact self.raw "lock range exceeds mapping length" offset len
      (self.lockRange kernel offset len)) ∧
    (∀ kernel, CallsExact self.raw "unlock range exceeds mapping length" offset len
      (self.unlockRange kernel offset len)) ∧
    (offset.toNat + len.toNat ≤ self.raw.len.toNat →
      (self.raw.ptr.toNat + offset.toNat ≠ 2 ^ 64 → AddressesExact self.raw page offset len) ∧
      (self.raw.ptr.toNat + offset.toNat = 2 ^ 64 →
        offset = self.raw.len ∧ len = 0 ∧ self.raw.ptr + offset = 0 ∧ NoWrap page offset len)) ∧
    ∀ mem start stop (f : Closure ρ),
      (¬ (start ≤ stop ∧ stop ≤ self.raw.len) →
        (self.read mem start stop f).result =
            .error (.outOfBounds start (stop - start) self.raw.len) ∧
          (self.read mem start stop f).touched = [] ∧
          (self.read mem start stop f).closures = 0) ∧
      (start ≤ stop ∧ stop ≤ self.raw.len →
        (∀ o l m, (self.read mem start stop f).result ≠ .error (.outOfBounds o l m)) ∧
          ∀ addr ∈ (self.read mem start stop f).touched,
            self.raw.ptr.toNat + start.toNat ≤ addr.toNat ∧
              addr.toNat < self.raw.ptr.toNat + stop.toNat) := by
  have hpos := page_pos hpage
  refine ⟨fun mem n f => guardRead_bounds hspace mem n f,
    fun mem data => write_bounds hclean hspace mem data,
    fun mem buf => readInto_bounds hclean hspace mem buf, ?_,
    fun timeout acts => timedPrefetch_bounds hclean hpos hroom.le hspace timeout acts,
    fun kernel advice => rangeCall_bounds kernel _ _,
    fun kernel asyncFlush => rangeCall_bounds kernel _ _,
    fun kernel => mincore_bounds page kernel,
    fun kernel => rangeCall_bounds kernel _ _, fun kernel => rangeCall_bounds kernel _ _, ?_,
    fun mem start stop f => read_bounds hclean hspace mem start stop f⟩
  · intro mem fuel hfuel
    exact probe_bounds hclean hpos hroom.le hspace mem ((rounds_le hpos len).trans_lt hfuel)
  · intro hin
    refine ⟨addresses_exact hpage hroom hspace hin, ?_⟩
    intro hend
    refine ⟨?_, ?_, ?_, noWrap_of_room hpage (by omega)⟩
    · apply UInt64.toNat_inj.mp
      omega
    · apply UInt64.toNat_inj.mp
      rw [show (0 : Usize).toNat = 0 from rfl]
      omega
    · apply UInt64.toNat_inj.mp
      rw [UInt64.toNat_add, hend]
      rfl

/-- A mapping of the last page of the address space. -/
def lastPage : SafeMmap where
  raw := ⟨0xfffffffffffff000, 4096, false⟩
  sigbusCount := 0
  poisoned := false
  maxSigbus := 3
  onEvent := false

/-- An empty read at the end of a mapping that ends with the address space is accepted, and
the pointer that it computes wraps.
SOURCE: mmap/guard.rs:99-115 -/
theorem lastPage_end_wraps :
    lastPage.raw.ptr.toNat + lastPage.raw.len.toNat ≤ 2 ^ 64 ∧
      lastPage.raw.len.toNat + (4096 : Usize).toNat < 2 ^ 64 ∧ lastPage.poisoned = false ∧
      (4096 : Usize).toNat + (0 : Usize).toNat ≤ lastPage.raw.len.toNat ∧
      (lastPage.raw.ptr + 4096).toNat ≠ lastPage.raw.ptr.toNat + (4096 : Usize).toNat ∧
      ¬ AddressesExact lastPage.raw 4096 4096 0 := by
  have hwraps : (lastPage.raw.ptr + 4096).toNat ≠
      lastPage.raw.ptr.toNat + (4096 : Usize).toNat := by decide
  exact ⟨by decide, by decide, rfl, by decide, hwraps, fun h => hwraps h.start⟩

/-- The last byte of the address space is read at its address, and an inverted range of the
same mapping is refused.
SOURCE: mmap/guard.rs:93-128, mmap/mod.rs:503-518 -/
theorem bounds_exact_lastPage :
    AddressesExact lastPage.raw 4096 4095 1 ∧
      (lastPage.read ⟨fun _ => 0, fun _ _ => false⟩ 7 3 SafeMmap.firstByte).result =
        .error (.outOfBounds 7 (3 - 7) 4096) := by
  obtain ⟨-, -, -, -, -, -, -, -, -, -, haddresses, hread⟩ :=
    bounds_exact lastPage 4096 12 rfl rfl (by decide) (by decide) 4095 1
  refine ⟨(haddresses (by decide)).1 (by decide), ?_⟩
  exact ((hread ⟨fun _ => 0, fun _ _ => false⟩ 7 3 SafeMmap.firstByte).1 (by decide)).1

end MmapShield.Analysis
