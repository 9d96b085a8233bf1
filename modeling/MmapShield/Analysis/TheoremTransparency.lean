import MmapShield.Analysis.ProbeLoop
import MmapShield.Analysis.TheoremFallback
import MmapShield.Analysis.TheoremRounding
import MmapShield.Computation.Machine
import MmapShield.Model.Store

/-!
# What hints do to the bytes

`lastWritten` says what a mapping is for: a position holds the byte that was written there last.
`Agrees` is the same for the bytes behind the mapping, and reads see nothing else
(`transparent_iff`). Every operation keeps it, but for the `MADV_DONTNEED` of `evict` and of
`advise_range` on a private mapping, which takes away the private copies of the pages that the
range meets: of all of them, or, when it fails, of those that the kernel has come to before.
-/

set_option autoImplicit false

namespace MmapShield.Analysis.Transparency

open MmapShield.Computation MmapShield.Model

variable {ρ : Type}

/-! ## What reads return -/

/-- The byte at a position of the mapping after some writes, the latest first. -/
def lastWritten (file : ℕ → UInt8) : List (ℕ × List UInt8) → ℕ → UInt8
  | [], i => file i
  | (offset, data) :: earlier, i => (written offset data i).getD (lastWritten file earlier i)

/-- The bytes of a range after some writes. -/
def expected (file : ℕ → UInt8) (writes : List (ℕ × List UInt8)) (offset len : Usize) :
    List UInt8 :=
  (List.range len.toNat).map fun i => lastWritten file writes (offset.toNat + i)

/-- Every successful read returns what was written last. -/
def Transparent (page : Usize) (file : ℕ → UInt8) (s : Store) : Prop :=
  (∀ (ρ : Type) (start stop : Usize) (f : Closure ρ) (v : ρ),
    s.read page start stop f = .ok v →
    v = f.value (expected file s.writes start (stop - start))) ∧
  ∀ (offset : Usize) (buf : Slice) (bytes : List UInt8),
    s.readInto page offset buf = .ok bytes → bytes = expected file s.writes offset buf.len

/-- Pages have a size that is a power of two, and the kernel places a mapping at the start of
one other than the null page, with the end still an address. -/
structure Mapped (page : Usize) (raw : RawMmap) : Prop where
  size : ∃ k, page.toNat = 2 ^ k
  aligned : page.toNat ∣ raw.ptr.toNat
  nonnull : raw.ptr ≠ 0
  fits : raw.ptr.toNat + raw.len.toNat < 2 ^ 64

/-- The byte behind a position. -/
def byte (page : Usize) (s : Store) (i : ℕ) : UInt8 :=
  s.pages.peek page.toNat (s.mmap.raw.ptr.toNat + i)

/-- The byte of the file at a position. -/
def fileByte (s : Store) (i : ℕ) : UInt8 := s.pages.base (s.mmap.raw.ptr.toNat + i)

/-- Every position holds what was written there last. -/
def Agrees (page : Usize) (file : ℕ → UInt8) (s : Store) : Prop :=
  ∀ i < s.mmap.raw.len.toNat, byte page s i = lastWritten file s.writes i

/-- What no operation changes, and that a shared mapping has no private copies. -/
structure Kept (options : SafeMmapOptions) (raw : RawMmap) (s : Store) : Prop where
  mmap : s.mmap = options.finish raw
  uncopied : s.shared = true → ∀ p, s.pages.copies p = none

section Reads

variable {options : SafeMmapOptions} {raw : RawMmap} {page : Usize} {file : ℕ → UInt8} {s : Store}

/-- INTERNAL: a store keeps its mapping. -/
theorem Kept.raw_eq (h : Kept options raw s) : s.mmap.raw = raw := by
  rw [h.mmap]
  rfl

/-- INTERNAL: a store is not poisoned. -/
theorem Kept.checkPoisoned (h : Kept options raw s) : s.mmap.checkPoisoned = .ok () := by
  rw [h.mmap]
  exact SafeMmap.checkPoisoned_clean rfl

/-- INTERNAL: the memory of a store does not fault. -/
theorem memory_quiet (page : Usize) (s : Store) (n : ℕ) (addr : Usize) :
    (s.memory page).faults n addr = false := rfl

/-- INTERNAL: the slice of a range inside the mapping. -/
theorem memory_bytes (hmapped : Mapped page s.mmap.raw) {offset len : Usize}
    (hin : offset.toNat + len.toNat ≤ s.mmap.raw.len.toNat) :
    (s.memory page).slice (s.mmap.raw.ptr + offset) len =
      (List.range len.toNat).map fun i => byte page s (offset.toNat + i) := by
  have hfits := hmapped.fits
  have hlen := len.toNat_lt
  rw [Memory.slice, wordsBelow, List.map_map]
  apply List.map_congr_left
  intro i hi
  rw [List.mem_range] at hi
  have hsmall : i < 2 ^ 64 := by omega
  have hword : (UInt64.ofNat i).toNat = i := UInt64.toNat_ofNat_of_lt' hsmall
  have hbase : (s.mmap.raw.ptr + offset).toNat = s.mmap.raw.ptr.toNat + offset.toNat := by
    apply toNat_add_of_fits
    omega
  have haddr : (s.mmap.raw.ptr + offset + UInt64.ofNat i).toNat =
      s.mmap.raw.ptr.toNat + (offset.toNat + i) := by
    rw [toNat_add_of_fits (by omega), hbase, hword, Nat.add_assoc]
  simp only [Function.comp_apply, Store.memory, haddr, byte]

/-- INTERNAL: **what a read returns.**
SOURCE: mmap/mod.rs:503-518, mmap/guard.rs:93-128 -/
theorem Kept.read_eq (h : Kept options raw s) (start stop : Usize) (f : Closure ρ) :
    s.mmap.read (s.memory page) start stop f =
      if s.mmap.raw.exceeds start (stop - start) then
        s.mmap.refuse (.outOfBounds start (stop - start) s.mmap.raw.len)
      else ⟨.ok (f.value ((s.memory page).slice (s.mmap.raw.ptr + start) (stop - start))),
        (f.touches (stop - start)).map fun i => s.mmap.raw.ptr + start + i, 1, [], s.mmap⟩ := by
  unfold SafeMmap.read ReadGuard.read RawMmap.exceeds
  simp only [h.checkPoisoned, touchAll_quiet (memory_quiet page s)]
  split <;> rfl

/-- INTERNAL: a copy that does not fault.
SOURCE: mmap/mod.rs:570-584, 824-838 -/
theorem copy_eq (s : Store) (ptr len : Usize) :
    s.mmap.copy (s.memory page) ptr len =
      ⟨.ok (), (wordsBelow len).map fun i => ptr + i, 0, [], s.mmap⟩ := by
  unfold SafeMmap.copy
  simp only [touchAll_quiet (memory_quiet page s)]
  rfl

/-- INTERNAL: **what a read into a buffer returns.**
SOURCE: mmap/mod.rs:815-839 -/
theorem Kept.readInto_eq (h : Kept options raw s) (offset : Usize) (buf : Slice) :
    s.mmap.readInto (s.memory page) offset buf =
      if s.mmap.raw.exceeds offset buf.len then
        s.mmap.refuse (.outOfBounds offset buf.len s.mmap.raw.len)
      else ⟨.ok (), (wordsBelow buf.len).map fun i => s.mmap.raw.ptr + offset + i, 0, [],
        s.mmap⟩ := by
  unfold SafeMmap.readInto
  simp only [h.checkPoisoned, checkBounds_eq, copy_eq]
  cases s.mmap.raw.exceeds offset buf.len <;> rfl

/-- INTERNAL: a range that passes the check is inside. -/
theorem inside_of_not_exceeds {raw : RawMmap} {offset len : Usize}
    (h : ¬ raw.exceeds offset len = true) : offset.toNat + len.toNat ≤ raw.len.toNat := by
  rw [Bool.not_eq_true] at h
  exact RawMmap.exceeds_eq_false_iff.mp h

/-- INTERNAL: the bytes of a range are what was written last. -/
theorem Agrees.slice (h : Agrees page file s) (hmapped : Mapped page s.mmap.raw)
    {offset len : Usize} (hin : offset.toNat + len.toNat ≤ s.mmap.raw.len.toNat) :
    (s.memory page).slice (s.mmap.raw.ptr + offset) len = expected file s.writes offset len := by
  rw [memory_bytes hmapped hin]
  apply List.map_congr_left
  intro i hi
  rw [List.mem_range] at hi
  apply h
  omega

/-- INTERNAL: **reads see every position of the mapping**, and nothing else. -/
theorem transparent_iff (h : Kept options raw s) (hmapped : Mapped page raw) :
    Transparent page file s ↔ Agrees page file s := by
  rw [← h.raw_eq] at hmapped
  refine ⟨?_, ?_⟩
  · rintro ⟨-, hinto⟩ i hi
    -- one byte, read into a buffer
    have hlen := s.mmap.raw.len.toNat_lt
    have hsmall : i < 2 ^ 64 := by omega
    have hword : (UInt64.ofNat i).toNat = i := UInt64.toNat_ofNat_of_lt' hsmall
    have hin : (UInt64.ofNat i).toNat + (1 : Usize).toNat ≤ s.mmap.raw.len.toNat := by
      rw [hword]
      exact hi
    have hinside := RawMmap.exceeds_eq_false_iff.mpr hin
    have hone := hinto (UInt64.ofNat i) ⟨[0], by decide⟩
      ((s.memory page).slice (s.mmap.raw.ptr + UInt64.ofNat i) 1) (by
        rw [Store.readInto, h.readInto_eq, show Slice.len ⟨[0], by decide⟩ = 1 from rfl, hinside]
        rfl)
    rw [memory_bytes hmapped hin] at hone
    simpa [expected, show Slice.len ⟨[0], by decide⟩ = 1 from rfl, hword] using hone
  · intro hagrees
    refine ⟨?_, ?_⟩
    · intro ρ start stop f v hread
      rw [Store.read, h.read_eq] at hread
      split at hread
      · cases hread
      · rename_i hin
        cases hread
        rw [hagrees.slice hmapped (inside_of_not_exceeds hin)]
    · intro offset buf bytes hread
      rw [Store.readInto, h.readInto_eq] at hread
      split at hread
      · cases hread
      · rename_i hin
        cases hread
        exact hagrees.slice hmapped (inside_of_not_exceeds hin)

end Reads

/-! ## What operations do to the bytes -/

/-- The range of an operation that hands `MADV_DONTNEED` to the kernel, with its answers. -/
def dontNeedRange : StoreAct ρ → Option (PageKernel × Usize × Usize)
  | .evict kernel offset len => some (kernel, offset, len)
  | .adviseRange kernel .dontNeed offset len => some (kernel, offset, len)
  | _ => none

/-- What the code needs of a `MADV_DONTNEED`: the mapping is shared, or the pages that its range
meets, as far as the kernel discards them, hold the bytes of the file. -/
def KeepsWrites (page : Usize) (act : StoreAct ρ) (s : Store) : Prop :=
  s.shared = true ∨ ∀ kernel offset len, dontNeedRange act = some (kernel, offset, len) →
    offset.toNat + len.toNat ≤ s.mmap.raw.len.toNat →
    ∀ i < s.mmap.raw.len.toNat, roundDown page.toNat offset.toNat ≤ i →
      i < roundUp page.toNat (offset.toNat + len.toNat) →
      kernel.reaches (.madvise (s.mmap.raw.ptr + alignedOffset page offset)
        (alignedLen page offset len) .dontNeed) ((s.mmap.raw.ptr.toNat + i) / page.toNat) = true →
      byte page s i = fileByte s i

section Effects

variable {options : SafeMmapOptions} {raw : RawMmap} {page : Usize} {kernel : PageKernel}
  {file : ℕ → UInt8} {s s' : Store}

/-- INTERNAL: **the pages of a call are those that the range meets.**
SOURCE: sys/mmap.rs:444-453 -/
theorem inCall_iff (hmapped : Mapped page raw) {offset len : Usize}
    (hin : offset.toNat + len.toNat ≤ raw.len.toNat) (i : ℕ) :
    inCall page (raw.ptr + alignedOffset page offset) (alignedLen page offset len)
        ((raw.ptr.toNat + i) / page.toNat) = true ↔
      roundDown page.toNat offset.toNat ≤ i ∧
        i < roundUp page.toNat (offset.toNat + len.toNat) := by
  obtain ⟨k, hk⟩ := hmapped.size
  have hpage := page_pos hk
  have hfits := hmapped.fits
  have hbefore := toNat_le_of_dvd hmapped.aligned hmapped.nonnull
  have hdown := roundDown_le page.toNat offset.toNat
  have hrange : roundDown page.toNat offset.toNat ≤
      roundUp page.toNat (offset.toNat + len.toNat) :=
    roundDown_le_roundUp hpage (Nat.le_add_right _ _)
  have hroom : offset.toNat + len.toNat + page.toNat < 2 ^ 64 := by omega
  have hsize := alignedLen_toNat hk hroom
  have hstart : (raw.ptr + alignedOffset page offset).toNat =
      raw.ptr.toNat + roundDown page.toNat offset.toNat := by
    rw [toNat_add_of_fits, alignedOffset_toNat hk]
    rw [alignedOffset_toNat hk]
    omega
  have hpageStart : (raw.ptr.toNat + i) / page.toNat * page.toNat =
      raw.ptr.toNat + roundDown page.toNat i := by
    rw [Nat.mul_comm, ← roundDown_add hpage hmapped.aligned]
    rfl
  rw [inCall, decide_eq_true_eq, hpageStart, hstart, hsize,
    ← roundDown_le_roundDown_iff hpage, ← roundDown_lt_roundUp_iff hpage]
  omega

/-- INTERNAL: what an operation on a range does to the bytes.
SOURCE: sys/mmap.rs:436-462, 475-500 -/
theorem issue_rangeCall (s : Store) (raw : RawMmap) (message : String) (offset len : Usize)
    (call : RangeCall) :
    s.issue page kernel (raw.rangeCall kernel.toRangeKernel message offset len call) =
      if offset.toNat + len.toNat ≤ raw.len.toNat then
        { s with pages := call.effect page kernel s.pages }
      else s := by
  unfold RawMmap.rangeCall
  rw [RawMmap.exceeds_eq]
  by_cases hin : raw.len.toNat < offset.toNat + len.toNat
  · rw [decide_eq_true hin, if_pos rfl, if_neg (Nat.not_le_of_lt hin)]
    rfl
  · rw [decide_eq_false hin, if_neg Bool.false_ne_true, if_pos (Nat.le_of_not_lt hin)]
    cases kernel.errno call <;> rfl

/-- INTERNAL: **a `MADV_DONTNEED` leaves the bytes of the file** in the pages that it meets and
discards.
SOURCE: sys/mmap.rs:436-462 -/
theorem byte_discard (hmapped : Mapped page s.mmap.raw) {offset len : Usize}
    (hin : offset.toNat + len.toNat ≤ s.mmap.raw.len.toNat) (i : ℕ) :
    byte page { s with pages := (RangeCall.madvise (s.mmap.raw.ptr + alignedOffset page offset)
        (alignedLen page offset len) .dontNeed).effect page kernel s.pages } i =
      if (roundDown page.toNat offset.toNat ≤ i ∧
          i < roundUp page.toNat (offset.toNat + len.toNat)) ∧
        kernel.reaches (.madvise (s.mmap.raw.ptr + alignedOffset page offset)
          (alignedLen page offset len) .dontNeed)
          ((s.mmap.raw.ptr.toNat + i) / page.toNat) = true then fileByte s i
      else byte page s i := by
  simp only [byte, RangeCall.effect, Overlay.peek_discard, Bool.and_eq_true,
    inCall_iff hmapped hin, fileByte]

/-- INTERNAL: **when a `MADV_DONTNEED` keeps what was written.**
SOURCE: sys/mmap.rs:436-462 -/
theorem dontNeed_agrees (h : Kept options raw s) (hmapped : Mapped page raw)
    (hagrees : Agrees page file s) {act : StoreAct ρ} {offset len : Usize}
    (hact : dontNeedRange act = some (kernel, offset, len)) :
    Agrees page file (s.issue page kernel
        (s.mmap.raw.adviseRange page kernel.toRangeKernel .dontNeed offset len)) ↔
      KeepsWrites page act s := by
  rw [← h.raw_eq] at hmapped
  rw [RawMmap.adviseRange, issue_rangeCall]
  split
  · rename_i hin
    refine ⟨?_, ?_⟩
    · intro hafter
      right
      intro kernel' offset' len' hact' _ i hi hfirst hlast hreached
      rw [hact] at hact'
      cases hact'
      have hi' := hafter i hi
      rw [byte_discard hmapped hin, if_pos ⟨⟨hfirst, hlast⟩, hreached⟩] at hi'
      rw [hi', hagrees i hi]
    · intro hkeeps i hi
      rw [byte_discard hmapped hin]
      split
      · rename_i hrange
        rcases hkeeps with hshared | hfile
        · -- a shared mapping has no copies, so its bytes are those of the file
          rw [← hagrees i hi]
          exact (Overlay.peek_of_uncopied (h.uncopied hshared _)).symm
        · rw [← hfile kernel offset len hact hin i hi hrange.1.1 hrange.1.2 hrange.2]
          exact hagrees i hi
      · exact hagrees i hi
  · rename_i hout
    refine ⟨fun _ => ?_, fun _ => hagrees⟩
    right
    intro kernel' offset' len' hact' hin
    rw [hact] at hact'
    cases hact'
    exact absurd hin hout

/-- INTERNAL: a call that discards nothing keeps the writes. -/
theorem keepsWrites_other {act : StoreAct ρ} (h : dontNeedRange act = none) :
    KeepsWrites page act s := by
  right
  intro kernel offset len hact
  rw [h] at hact
  cases hact

/-- INTERNAL: a write leaves the mapping alone, and one that succeeds is inside.
SOURCE: mmap/mod.rs:556-585 -/
theorem Kept.write (h : Kept options raw s) (page offset : Usize) (data : Slice) :
    (s.mmap.write (s.memory page) offset data).mmap = s.mmap ∧
      ((s.mmap.write (s.memory page) offset data).result = .ok () →
        offset.toNat + data.len.toNat ≤ s.mmap.raw.len.toNat) := by
  unfold SafeMmap.write
  simp only [h.checkPoisoned, checkBounds_eq]
  by_cases hin : s.mmap.raw.exceeds offset data.len = true
  · simp [hin, SafeMmap.refuse]
  · simp only [hin, Bool.false_eq_true, if_false]
    refine ⟨?_, fun _ => inside_of_not_exceeds hin⟩
    cases s.mmap.raw.asMutPtr with
    | none => rfl
    | some dst =>
      simp only [copy_eq]

/-- INTERNAL: **a write puts its bytes at their positions.**
SOURCE: mmap/mod.rs:570-577 -/
theorem Agrees.write (hagrees : Agrees page file s) (h : Kept options raw s)
    (hmapped : Mapped page raw) (offset : Usize) (data : Slice) :
    Agrees page file (s.write page offset data) := by
  obtain ⟨hmmap, hok⟩ := h.write page offset data
  rw [← h.raw_eq] at hmapped
  unfold Store.write
  dsimp only
  cases hresult : (s.mmap.write (s.memory page) offset data).result with
  | error e =>
    simp only [hmmap]
    exact hagrees
  | ok u =>
    simp only [hmmap]
    intro i hi
    have hin := hok hresult
    have hfits := hmapped.fits
    have hbase : (s.mmap.raw.ptr + offset).toNat = s.mmap.raw.ptr.toNat + offset.toNat := by
      apply toNat_add_of_fits
      omega
    simp only [byte, hbase, Overlay.peek_pokeAll h.uncopied, written_shift, lastWritten]
    congr 1
    exact hagrees i hi

/-! ## Runs -/

/-- INTERNAL: **every step keeps the mapping**, and makes no private copy of a shared page. -/
theorem Kept.step (act : StoreAct ρ) (s s' : Store) (hkept : Kept options raw s)
    (hstep : Store.step page act s = some s') : Kept options raw s' := by
  have hissue (kernel : PageKernel) (message : String) (offset len : Usize) (call : RangeCall) :
      Kept options raw (s.issue page kernel
        (s.mmap.raw.rangeCall kernel.toRangeKernel message offset len call)) := by
    rw [issue_rangeCall]
    split
    · refine ⟨hkept.mmap, ?_⟩
      intro hshared p
      have hnone := hkept.uncopied hshared p
      unfold RangeCall.effect
      split
      · simp [Overlay.discard, hnone]
      · exact hnone
    · exact hkept
  cases act with
  | write offset data =>
    cases hstep
    obtain ⟨hmmap, -⟩ := hkept.write page offset data
    unfold Store.write
    dsimp only
    split
    · exact ⟨hmmap.trans hkept.mmap, hkept.uncopied⟩
    · refine ⟨hmmap.trans hkept.mmap, ?_⟩
      intro hshared p
      simp only at hshared
      simp only [hshared, Overlay.pokeAll_through_copies]
      exact hkept.uncopied hshared p
  | read start stop f =>
    cases hstep
    rw [hkept.read_eq]
    split <;> exact hkept
  | readInto offset buf =>
    cases hstep
    rw [hkept.readInto_eq]
    split <;> exact hkept
  | evict kernel offset len | prefetch kernel offset len | adviseRange kernel advice offset len
  | flush kernel offset len asyncFlush =>
    cases hstep
    exact hissue kernel _ offset len _

/-- INTERNAL: **when a step keeps what was written.**
SOURCE: mmap/mod.rs:503-585, 601-603, 646-648, 709-711, 733-735, 815-839 -/
theorem step_agrees (hmapped : Mapped page raw) (act : StoreAct ρ) (s s' : Store)
    (hkept : Kept options raw s) (hagrees : Agrees page file s)
    (hstep : Store.step page act s = some s') :
    Agrees page file s' ↔ KeepsWrites page act s := by
  have hother (kernel : PageKernel) (message : String) (offset len : Usize) (call : RangeCall)
      (heffect : call.effect page kernel s.pages = s.pages) :
      Agrees page file (s.issue page kernel
        (s.mmap.raw.rangeCall kernel.toRangeKernel message offset len call)) := by
    rw [issue_rangeCall, heffect]
    split <;> exact hagrees
  cases act with
  | write offset data =>
    cases hstep
    exact iff_of_true (hagrees.write hkept hmapped offset data) (keepsWrites_other rfl)
  | read start stop f =>
    cases hstep
    rw [hkept.read_eq]
    refine iff_of_true ?_ (keepsWrites_other rfl)
    split <;> exact hagrees
  | readInto offset buf =>
    cases hstep
    rw [hkept.readInto_eq]
    refine iff_of_true ?_ (keepsWrites_other rfl)
    split <;> exact hagrees
  | evict kernel offset len =>
    cases hstep
    exact dontNeed_agrees hkept hmapped hagrees rfl
  | prefetch kernel offset len | flush kernel offset len asyncFlush =>
    cases hstep
    exact iff_of_true (hother kernel _ offset len _ rfl) (keepsWrites_other rfl)
  | adviseRange kernel advice offset len =>
    cases hstep
    cases advice with
    | dontNeed => exact dontNeed_agrees hkept hmapped hagrees rfl
    | _ => exact iff_of_true (hother kernel _ offset len _ rfl) (keepsWrites_other rfl)

end Effects

/-- RESULT: **hints are transparent to the bytes exactly as long as no `MADV_DONTNEED` discards a
private page that was written.** For every file, every mapping of it that `open` returned, shared
or private, and every run of operations on it: in every state that the run goes through, each
successful read and read into a buffer returns at every position the byte that was written there
last, or that of the file, if and only if at every `evict` and every `advise_range` with
`DontNeed` that is in bounds the mapping is shared, or the pages that the range meets, rounded out
to whole pages, hold the bytes of the file; of a call that fails these are the pages that the
kernel has discarded before it failed, whichever they are.
SOURCE: mmap/mod.rs:503-585, 601-603, 646-648, 709-711, 733-735, 815-839, sys/mmap.rs:436-462 -/
theorem hints_transparent_iff (options : SafeMmapOptions) (raw : RawMmap) (page : Usize)
    (file : ℕ → UInt8) (hmapped : Mapped page raw) (acts : List (StoreAct ρ)) (s : Store)
    (h : run (Store.step page) acts (.start options raw file) = some s) :
    (∀ before, before <+: acts → ∀ u,
      run (Store.step page) before (.start options raw file) = some u →
      Transparent page file u) ↔
    Along (Store.step page) (KeepsWrites page) acts (.start options raw file) := by
  have hkept : Kept options raw (.start options raw file) := ⟨rfl, fun _ _ => rfl⟩
  have hagrees : Agrees page file (.start options raw file) := by
    intro i _
    change file (raw.ptr.toNat + i - raw.ptr.toNat) = file i
    rw [Nat.add_sub_cancel_left]
  have hreached {before : List (StoreAct ρ)} {u : Store}
      (hu : run (Store.step page) before (.start options raw file) = some u) :
      Transparent page file u ↔ Agrees page file u :=
    transparent_iff (reach_invariant (Kept options raw) Kept.step before hkept hu) hmapped
  rw [← always_iff_along (Kept options raw) (Agrees page file) Kept.step
    (step_agrees hmapped) acts hkept hagrees h]
  refine ⟨?_, ?_⟩
  · intro hall before hbefore u hu
    exact (hreached hu).mp (hall before hbefore u hu)
  · intro hall before hbefore u hu
    exact (hreached hu).mpr (hall before hbefore u hu)

/-- A private writable mapping of one page. -/
def privatePage : SafeMmapOptions := { SafeMmapOptions.new with writable := true }

/-- A shared one. -/
def sharedPage : SafeMmapOptions := { privatePage with shared := true }

/-- A kernel that refuses nothing. -/
def obliging : PageKernel := ⟨⟨fun _ => none, fun _ => 1⟩, fun _ _ => false⟩

/-- A byte is written, and no bytes from the next one on are evicted. -/
def evictNothing : List (StoreAct UInt8) := [.write 0 ⟨[7], by decide⟩, .evict obliging 1 0]

/-- The byte that was written to a private mapping is lost, though it is outside of the evicted
range, which is empty.
SOURCE: mmap/mod.rs:709-711, sys/mmap.rs:444-453 -/
theorem evict_loses_write :
    ∃ s, run (Store.step 4096) evictNothing
        (.start privatePage ⟨0x10000, 0x1000, true⟩ fun _ => 0) = some s ∧
      s.writes = [(0, [7])] ∧ lastWritten (fun _ => 0) s.writes 0 = 7 ∧
      s.read 4096 0 1 SafeMmap.firstByte = .ok 0 := by
  exact ⟨_, rfl, rfl, rfl, rfl⟩

/-- So does an `evict` that fails at the second page, after it has discarded the first one. -/
example : (run (Store.step 4096)
    ([.write 0 ⟨[7], by decide⟩,
      .evict ⟨⟨fun _ => some 22, fun _ => 1⟩, fun _ p => p == 16⟩ 0 8192] : List (StoreAct UInt8))
    (.start privatePage ⟨0x10000, 0x2000, true⟩ fun _ => 0)).map
      (fun s => s.read 4096 0 1 SafeMmap.firstByte) = some (.ok 0) := rfl

/-- A shared mapping keeps it.
SOURCE: mmap/mod.rs:709-711 -/
theorem hints_transparent_iff_shared :
    ∃ s, run (Store.step 4096) evictNothing
        (.start sharedPage ⟨0x10000, 0x1000, true⟩ fun _ => 0) = some s ∧
      Transparent 4096 (fun _ => 0) s ∧ s.read 4096 0 1 SafeMmap.firstByte = .ok 7 := by
  have hmapped : Mapped 4096 ⟨0x10000, 0x1000, true⟩ :=
    ⟨⟨12, rfl⟩, ⟨16, rfl⟩, by decide, by decide⟩
  refine ⟨_, rfl, ?_, rfl⟩
  refine (hints_transparent_iff sharedPage _ 4096 _ hmapped evictNothing _ rfl).mpr ?_
    evictNothing (List.prefix_refl _) _ rfl
  refine ⟨keepsWrites_other rfl, ?_⟩
  intro u hu
  cases hu
  exact ⟨Or.inl rfl, fun _ _ => trivial⟩

end MmapShield.Analysis.Transparency
