import MmapShield.Analysis.ProbeLoop
import MmapShield.Analysis.TheoremFallback
import MmapShield.Model.Display

/-!
# Printing the errors

An error of an accessor has a text unless it is the `OutOfBounds` of a range whose end is no
word. `Reported` says which errors an accessor can return for a range, and `reported_prints`
is the one argument about all of them.
-/

set_option autoImplicit false

namespace MmapShield.Analysis

open MmapShield.Computation MmapShield.Model

variable {ρ : Type}

/-- The error has a text, and the end of a range that it prints is not before its start. -/
def Prints (strerror : ℕ → String) (e : AccessError) : Prop :=
  (e.display strerror).isSome = true ∧
    match e with
    | .outOfBounds offset len _ | .timeout offset len _ => offset ≤ offset + len
    | _ => True

/-- Every error that the call has returned prints. -/
def ResultPrints (strerror : ℕ → String) (result : Except AccessError ρ) : Prop :=
  ∀ e, result = .error e → Prints strerror e

/-- The error is none that prints a range. -/
def rangeless : AccessError → Bool
  | .outOfBounds _ _ _ | .timeout _ _ _ => false
  | _ => true

/-- An accessor refuses the range, or returns no other error with a range than a timeout of
this one. -/
structure Reported (raw : RawMmap) (offset len : Usize) (result : Except AccessError ρ) : Prop where
  refused : raw.exceeds offset len = true → result = .error (.outOfBounds offset len raw.len)
  passed : raw.exceeds offset len = false → ∀ e, result = .error e →
    rangeless e = true ∨ ∃ deadline, e = .timeout offset len deadline

section Texts

variable {strerror : ℕ → String} {offset len : Usize}

/-- INTERNAL: an error without a range always prints. -/
theorem prints_rangeless {e : AccessError} (h : rangeless e = true) : Prints strerror e := by
  cases e with
  | outOfBounds _ _ _ | timeout _ _ _ => cases h
  | _ => exact ⟨rfl, trivial⟩

/-- INTERNAL: a sum that fits is printed, and is not before its start. -/
theorem le_add_of_fits (h : offset.toNat + len.toNat < 2 ^ 64) : offset ≤ offset + len := by
  rw [UInt64.le_iff_toNat_le, toNat_add_of_fits h]
  omega

/-- INTERNAL: the sum of the end of a range. -/
theorem checkedAdd_isSome :
    (checkedAdd offset len).isSome = true ↔ offset.toNat + len.toNat < 2 ^ 64 := by
  unfold checkedAdd
  split
  · rename_i hfits
    exact iff_of_true rfl hfits
  · rename_i hfits
    exact iff_of_false Bool.false_ne_true hfits

/-- INTERNAL: the error of the bounds check prints the end of its range, if that is a word.
SOURCE: error.rs:59 -/
theorem prints_outOfBounds (strerror : ℕ → String) (offset len mappingLen : Usize) :
    Prints strerror (.outOfBounds offset len mappingLen) ↔
      offset.toNat + len.toNat < 2 ^ 64 := by
  unfold Prints AccessError.display
  rw [Option.isSome_map, checkedAdd_isSome]
  exact and_iff_left_of_imp le_add_of_fits

/-- INTERNAL: a timeout prints the end of its range, if that is a word.
SOURCE: error.rs:88 -/
theorem prints_timeout {deadline : ℕ} (hfits : offset.toNat + len.toNat < 2 ^ 64) :
    Prints strerror (.timeout offset len deadline) := by
  unfold Prints AccessError.display
  rw [Option.isSome_map, checkedAdd_isSome]
  exact ⟨hfits, le_add_of_fits hfits⟩

/-- INTERNAL: **when the errors of an accessor print.**
SOURCE: error.rs:59-64, 88-93 -/
theorem reported_prints {raw : RawMmap} {result : Except AccessError ρ}
    (h : Reported raw offset len result) :
    ResultPrints strerror result ↔ offset.toNat + len.toNat < 2 ^ 64 := by
  cases hcheck : raw.exceeds offset len with
  | true =>
    have hresult := h.refused hcheck
    rw [← prints_outOfBounds strerror offset len raw.len]
    constructor
    · intro hprints
      exact hprints _ hresult
    · intro hprints e he
      rw [hresult] at he
      cases he
      exact hprints
  | false =>
    have hfits : offset.toNat + len.toNat < 2 ^ 64 := by
      have hlen := UInt64.toNat_lt raw.len
      have hin := RawMmap.exceeds_eq_false_iff.mp hcheck
      omega
    refine iff_of_true ?_ hfits
    intro e he
    rcases h.passed hcheck e he with hless | ⟨deadline, rfl⟩
    · exact prints_rangeless hless
    · exact prints_timeout hfits

end Texts

/-! ## The errors of each accessor -/

section Accessors

variable {self : SafeMmap} {raw : RawMmap} {offset len : Usize}

/-- INTERNAL: a result whose errors print no range, of an access that the check let through. -/
theorem reported_passed (h : raw.exceeds offset len = false) {result : Except AccessError ρ}
    (hresult : ∀ e, result = .error e → rangeless e = true) : Reported raw offset len result where
  refused := by
    intro hout
    rw [h] at hout
    cases hout
  passed := fun _ e he => Or.inl (hresult e he)

/-- INTERNAL: a range that is refused is reported as it is. -/
theorem reported_refused (h : raw.exceeds offset len = true) :
    Reported (ρ := ρ) raw offset len (.error (.outOfBounds offset len raw.len)) where
  refused := fun _ => rfl
  passed := by
    intro hin
    rw [h] at hin
    cases hin

/-- INTERNAL: the error of a fault prints no range. -/
theorem sigbus_rangeless {addr : Usize} :
    ∀ e, (.error (.sigbus addr) : Except AccessError ρ) = .error e → rangeless e = true := by
  intro e he
  cases he
  rfl

/-- INTERNAL: a result without an error has no range. -/
theorem ok_rangeless {value : ρ} :
    ∀ e, (.ok value : Except AccessError ρ) = .error e → rangeless e = true := by
  intro e he
  cases he

/-- INTERNAL: the accounting returns the result that it is given.
SOURCE: mmap/mod.rs:511-517 -/
theorem settle_result (result : Except AccessError ρ) (touched : List Usize) (closures : ℕ) :
    (self.settle result touched closures).result = result := by
  unfold SafeMmap.settle
  split <;> rfl

/-- SOURCE: mmap/guard.rs:93-128 -/
theorem guardRead_reported (mem : Memory) (n : ℕ) (f : Closure ρ) :
    Reported raw offset len (ReadGuard.read raw mem n offset len f).result := by
  cases hcheck : raw.exceeds offset len with
  | true =>
    rw [guardRead_refused mem n f hcheck]
    exact reported_refused hcheck
  | false =>
    rw [guardRead_passed mem n f hcheck]
    cases (mem.touchAll n ((f.touches len).map fun i => raw.ptr + offset + i)).2 with
    | ok value => exact reported_passed hcheck ok_rangeless
    | error addr => exact reported_passed hcheck sigbus_rangeless

/-- INTERNAL: the copy has no error but a SIGBUS.
SOURCE: mmap/mod.rs:570-584, 824-838 -/
theorem copy_rangeless (mem : Memory) (ptr count : Usize) :
    ∀ e, (self.copy mem ptr count).result = .error e → rangeless e = true := by
  unfold SafeMmap.copy
  split
  · rw [settle_result]
    exact ok_rangeless
  · rw [settle_result]
    exact sigbus_rangeless

/-- SOURCE: mmap/mod.rs:556-585 -/
theorem write_reported (hclean : self.poisoned = false) (mem : Memory) (data : Slice) :
    Reported self.raw offset data.len (self.write mem offset data).result := by
  unfold SafeMmap.write
  rw [SafeMmap.checkPoisoned_clean hclean, checkBounds_eq]
  cases hcheck : self.raw.exceeds offset data.len with
  | true => exact reported_refused hcheck
  | false =>
    cases self.raw.asMutPtr with
    | none =>
      apply reported_passed hcheck
      intro e he
      cases he
      rfl
    | some dst => exact reported_passed hcheck (copy_rangeless mem (dst + offset) data.len)

/-- SOURCE: mmap/mod.rs:815-839 -/
theorem readInto_reported (hclean : self.poisoned = false) (mem : Memory) (buf : Slice) :
    Reported self.raw offset buf.len (self.readInto mem offset buf).result := by
  unfold SafeMmap.readInto
  rw [SafeMmap.checkPoisoned_clean hclean, checkBounds_eq]
  cases hcheck : self.raw.exceeds offset buf.len with
  | true => exact reported_refused hcheck
  | false =>
    exact reported_passed hcheck (copy_rangeless mem (self.raw.ptr + offset) buf.len)

/-- INTERNAL: the loop of `probe` reads one byte before the end of the range, so that only a
fault ends it early, whatever the positions are.
SOURCE: mmap/mod.rs:676-683 -/
theorem probeLoop_rangeless {page stop : Usize} (hstop : stop ≤ self.raw.len) (mem : Memory)
    {fuel n : ℕ} {pos : Usize} {result : Except AccessError Unit} {touched : List Usize}
    (h : self.probeLoop page mem stop fuel n pos = some (result, touched)) :
    ∀ e, result = .error e → rangeless e = true := by
  induction fuel generalizing n pos touched with
  | zero => cases h
  | succ fuel ih =>
      simp only [SafeMmap.probeLoop] at h
      split at h
      · rename_i hlt
        rw [read_firstByte mem n (RawMmap.exceeds_one hlt hstop)] at h
        by_cases hfault : mem.faults n (self.raw.ptr + pos) = true
        · simp only [hfault, if_true, Option.some.injEq, Prod.mk.injEq] at h
          rw [← h.1]
          exact sigbus_rangeless
        · simp only [hfault, Bool.false_eq_true, if_false, Option.map_eq_some_iff] at h
          obtain ⟨rest, hrest, heq⟩ := h
          rw [Prod.mk.injEq] at heq
          have hpair : self.probeLoop page mem stop fuel (n + 1) (pos + page) =
              some (result, rest.2) := by
            rw [hrest, ← heq.1]
          exact ih hpair
      · simp only [Option.some.injEq, Prod.mk.injEq] at h
        rw [← h.1]
        exact ok_rangeless

/-- SOURCE: mmap/mod.rs:668-686 -/
theorem probe_reported (hclean : self.poisoned = false) {page : Usize} (mem : Memory) {fuel : ℕ}
    {o : Outcome Unit} (h : self.probe page mem fuel offset len = some o) :
    Reported self.raw offset len o.result := by
  unfold SafeMmap.probe at h
  rw [SafeMmap.checkPoisoned_clean hclean, checkBounds_eq] at h
  cases hcheck : self.raw.exceeds offset len with
  | true =>
    rw [hcheck] at h
    rw [← Option.some.inj h]
    exact reported_refused hcheck
  | false =>
    have hstop : offset + len ≤ self.raw.len :=
      add_le_of_fits (RawMmap.exceeds_eq_false_iff.mp hcheck)
    rw [hcheck] at h
    simp only [Bool.false_eq_true, if_false, Option.map_eq_some_iff] at h
    obtain ⟨⟨result, touched⟩, hloop, rfl⟩ := h
    have hless := probeLoop_rangeless hstop mem hloop
    apply reported_passed hcheck
    intro e he
    apply hless e
    cases result with
    | ok value => cases he
    | error e' => exact he

/-- SOURCE: mmap/mod.rs:766-787, mmap/prefetch.rs:90-150 -/
theorem timedPrefetch_reported (hclean : self.poisoned = false) {page : Usize} {timeout : ℕ}
    {acts : List PrefetchAct} {o : Outcome Unit}
    (h : self.timedPrefetch page offset len timeout acts = some o) :
    Reported self.raw offset len o.result := by
  have hgate := SafeMmap.checkPoisoned_clean hclean
  cases hcheck : self.raw.exceeds offset len with
  | true =>
    unfold SafeMmap.timedPrefetch at h
    rw [hgate, checkBounds_eq, hcheck] at h
    rw [← Option.some.inj h]
    exact reported_refused hcheck
  | false =>
    have hbounds := checkBounds_inside (RawMmap.exceeds_eq_false_iff.mp hcheck)
    unfold SafeMmap.timedPrefetch at h
    rw [hgate, hbounds] at h
    simp only at h
    split at h
    · cases h
    · rename_i s hrun
      split at h
      · rename_i result hcaller
        have hprotocol := reach_invariant (Protocol page (self.prefetchCall offset len timeout))
          Protocol.step acts (protocol_init page _) hrun
        have hok := hprotocol.caller
        rw [hcaller] at hok
        have hresult : o.result = result := by
          rw [← Option.some.inj h]
          unfold SafeMmap.prefetchWithTimeout
          rw [hgate, hbounds]
          simp only
          split
          · rw [settle_result]
          · rfl
          · rfl
        refine ⟨?_, ?_⟩
        · intro hout
          rw [hcheck] at hout
          cases hout
        · intro _ e he
          rw [hresult] at he
          rcases hok.2 with ⟨htimeout, -⟩ | ⟨-, hgenuine⟩
          · rw [htimeout] at he
            cases he
            exact Or.inr ⟨timeout, rfl⟩
          · rw [he] at hgenuine
            cases e with
            | sigbus addr => exact Or.inl rfl
            | _ => exact hgenuine.elim
      · cases h

/-- INTERNAL: the range of a read of offsets ends with a word unless it is inverted.
SOURCE: mmap/mod.rs:511 -/
theorem range_fits_iff (start stop : Usize) :
    start.toNat + (stop - start).toNat < 2 ^ 64 ↔ start ≤ stop := by
  have hstop := UInt64.toNat_lt stop
  have hstart := UInt64.toNat_lt start
  by_cases hle : start ≤ stop
  · have hsub := toNat_sub_of_ge hle
    have hnat := hle
    rw [UInt64.le_iff_toNat_le] at hnat
    exact iff_of_true (by omega) hle
  · have hlt := UInt64.not_le.mp hle
    have hsub := toNat_sub_of_gt hlt
    rw [UInt64.lt_iff_toNat_lt] at hlt
    exact iff_of_false (by omega) hle

/-- SOURCE: mmap/mod.rs:503-518 -/
theorem read_reported (hclean : self.poisoned = false) (mem : Memory) (start stop : Usize)
    (f : Closure ρ) :
    Reported self.raw start (stop - start) (self.read mem start stop f).result := by
  unfold SafeMmap.read
  rw [SafeMmap.checkPoisoned_clean hclean]
  dsimp only
  rw [settle_result]
  exact guardRead_reported mem 0 f

end Accessors

/-! ## The fallback -/

/-- INTERNAL: the errors of the system calls print no range.
SOURCE: sys/pread.rs:24-52 -/
theorem preadLoop_rangeless (pread : Pread) (fd : ℤ) (offset : Int64) (n total : ℕ)
    (buf : List UInt8) :
    ∀ e, (preadLoop pread fd offset n total buf).result = .error e → rangeless e = true := by
  induction n, total, buf using preadLoop.induct pread fd offset with
  | case1 n total buf hlt e herr =>
    intro e' he
    unfold preadLoop at he
    rw [dif_pos hlt] at he
    simp only [herr] at he
    cases he
    rfl
  | case2 n total buf hlt bytes hok hzero =>
    intro e' he
    unfold preadLoop at he
    rw [dif_pos hlt] at he
    simp only [hok, hzero, dite_true] at he
    cases he
    rfl
  | case3 n total buf hlt bytes hok hzero hless ih =>
    intro e' he
    unfold preadLoop at he
    rw [dif_pos hlt] at he
    simp only [hok, hzero, dite_false] at he
    exact ih e' he
  | case4 n total buf hge =>
    intro e' he
    unfold preadLoop at he
    rw [dif_neg hge] at he
    cases he

/-- INTERNAL: **when the errors of the fallback print.** The end of the range is checked alone,
so that an inverted range is refused only when it ends after the file.
SOURCE: fallback/mod.rs:82-102 -/
theorem reader_prints_iff (strerror : ℕ → String) (reader : PreadReader) (alloc : Usize → Bool)
    (pread : Pread) (start stop : Usize) (f : List UInt8 → ρ) (result : Except AccessError ρ)
    (h : reader.read alloc pread start stop f = .returned result) :
    ResultPrints strerror result ↔ start ≤ stop ∨ stop ≤ reader.len := by
  unfold PreadReader.read at h
  dsimp only at h
  split at h
  · rename_i hout
    cases h
    rw [or_iff_left (UInt64.not_le.mpr hout), ← range_fits_iff,
      ← prints_outOfBounds strerror start (stop - start) reader.len]
    constructor
    · intro hprints
      exact hprints _ rfl
    · intro hprints e he
      cases he
      exact hprints
  · rename_i hin
    refine iff_of_true ?_ (Or.inr (UInt64.not_lt.mp hin))
    intro e he
    apply prints_rangeless
    split at h
    · cases h
    · cases h
    · rename_i buf _
      split at h
      · rename_i e' herr
        cases h
        cases he
        exact preadLoop_rangeless pread reader.fd start.toInt64 0 0 buf e herr
      · cases h
        cases he

/-- INTERNAL: the gate of a poisoned mapping, in front of any accessor. -/
theorem gated_prints {strerror : ℕ → String} {self : SafeMmap} {offset len : Usize}
    {result : Except AccessError ρ}
    (hpoisoned : self.checkPoisoned = .error (.poisoned self.sigbusCount) →
      result = .error (.poisoned self.sigbusCount))
    (hclean : self.poisoned = false → Reported self.raw offset len result) :
    ResultPrints strerror result ↔
      self.poisoned = true ∨ offset.toNat + len.toNat < 2 ^ 64 := by
  cases hp : self.poisoned with
  | true =>
    have hresult := hpoisoned (SafeMmap.checkPoisoned_poisoned hp)
    refine iff_of_true ?_ (Or.inl rfl)
    intro e he
    rw [hresult] at he
    cases he
    exact prints_rangeless rfl
  | false =>
    rw [reported_prints (hclean hp)]
    simp

/-- RESULT: **when every returned error prints.** An accessor of a mapping returns only errors
whose text can be computed exactly when the mapping is poisoned or the unbounded sum of offset
and length is a word; a guard has no poison check. A read of offsets does exactly when the
range is not inverted, and the fallback also when an inverted range ends inside the file.
SOURCE: error.rs:39-101, mmap/mod.rs:503-585, 668-686, 766-787, 815-839, mmap/guard.rs:93-128,
fallback/mod.rs:82-102 -/
theorem errors_print_iff (strerror : ℕ → String) (self : SafeMmap) (page offset len : Usize) :
    (∀ mem n (f : Closure ρ),
      ResultPrints strerror (ReadGuard.read self.raw mem n offset len f).result ↔
        offset.toNat + len.toNat < 2 ^ 64) ∧
    (∀ mem data, ResultPrints strerror (self.write mem offset data).result ↔
      self.poisoned = true ∨ offset.toNat + data.len.toNat < 2 ^ 64) ∧
    (∀ mem buf, ResultPrints strerror (self.readInto mem offset buf).result ↔
      self.poisoned = true ∨ offset.toNat + buf.len.toNat < 2 ^ 64) ∧
    (∀ mem fuel o, self.probe page mem fuel offset len = some o →
      (ResultPrints strerror o.result ↔
        self.poisoned = true ∨ offset.toNat + len.toNat < 2 ^ 64)) ∧
    (∀ timeout acts o, self.timedPrefetch page offset len timeout acts = some o →
      (ResultPrints strerror o.result ↔
        self.poisoned = true ∨ offset.toNat + len.toNat < 2 ^ 64)) ∧
    (∀ mem start stop (f : Closure ρ), ResultPrints strerror (self.read mem start stop f).result ↔
      self.poisoned = true ∨ start ≤ stop) ∧
    ∀ (reader : PreadReader) alloc pread start stop (f : List UInt8 → ρ) result,
      reader.read alloc pread start stop f = .returned result →
        (ResultPrints strerror result ↔ start ≤ stop ∨ stop ≤ reader.len) := by
  refine ⟨?_, ?_, ?_, ?_, ?_, ?_, ?_⟩
  · intro mem n f
    exact reported_prints (guardRead_reported mem n f)
  · intro mem data
    refine gated_prints ?_ fun hclean => write_reported hclean mem data
    intro hgate
    unfold SafeMmap.write
    rw [hgate]
    rfl
  · intro mem buf
    refine gated_prints ?_ fun hclean => readInto_reported hclean mem buf
    intro hgate
    unfold SafeMmap.readInto
    rw [hgate]
    rfl
  · intro mem fuel o h
    refine gated_prints ?_ fun hclean => probe_reported hclean mem h
    intro hgate
    unfold SafeMmap.probe at h
    rw [hgate] at h
    rw [← Option.some.inj h]
    rfl
  · intro timeout acts o h
    refine gated_prints ?_ fun hclean => timedPrefetch_reported hclean h
    intro hgate
    unfold SafeMmap.timedPrefetch at h
    rw [hgate] at h
    rw [← Option.some.inj h]
    rfl
  · intro mem start stop f
    rw [← range_fits_iff]
    refine gated_prints ?_ fun hclean => read_reported hclean mem start stop f
    intro hgate
    unfold SafeMmap.read
    rw [hgate]
    rfl
  · intro reader alloc pread start stop f result h
    exact reader_prints_iff strerror reader alloc pread start stop f result h

/-- A mapping of one page. -/
def writablePage : SafeMmap where
  raw := ⟨0x10000, 4096, true⟩
  sigbusCount := 0
  poisoned := false
  maxSigbus := 3
  onEvent := false

/-- A write of one byte at the last offset of all: the error of the bounds check has no text,
because the end that it prints is no word.
SOURCE: error.rs:66, mmap/mod.rs:1022-1037 -/
theorem write_error_unprintable :
    (writablePage.write ⟨fun _ => 0, fun _ _ => false⟩ 0xffffffffffffffff ⟨[1], by decide⟩).result =
        .error (.outOfBounds 0xffffffffffffffff 1 4096) ∧
      (AccessError.outOfBounds 0xffffffffffffffff 1 4096).display (fun _ => "") = none ∧
      ¬ ResultPrints (fun _ => "")
        (writablePage.write ⟨fun _ => 0, fun _ _ => false⟩ 0xffffffffffffffff
          ⟨[1], by decide⟩).result := by
  have hresult : (writablePage.write ⟨fun _ => 0, fun _ _ => false⟩ 0xffffffffffffffff
      ⟨[1], by decide⟩).result = .error (.outOfBounds 0xffffffffffffffff 1 4096) := rfl
  have hnone : (AccessError.outOfBounds 0xffffffffffffffff 1 4096).display (fun _ => "") =
      none := rfl
  refine ⟨hresult, hnone, ?_⟩
  intro hprints
  have hsome := (hprints _ hresult).1
  rw [hnone] at hsome
  cases hsome

end MmapShield.Analysis
