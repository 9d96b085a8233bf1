import MmapShield.Computation.Pages
import MmapShield.Model.Advice

/-!
# Rounding byte ranges out to pages

`advise_range` and `flush` round the length of a range up from the start of its first page,
`mincore` rounds its end up and subtracts. Both are the pages that the range meets, no sum
or difference on the way wraps, and the pages are pages of the mapping
(`page_rounding_exact`).
-/

set_option autoImplicit false

namespace MmapShield.Analysis

open MmapShield.Computation MmapShield.Model

/-- Every sum and difference of `advise_range`, `flush` and `mincore` on the offset and the
length is the one of the numbers.
SOURCE: sys/mmap.rs:445-446, 484-485, 532-534 -/
structure NoWrap (page offset len : Usize) : Prop where
  mask : 1 ≤ page
  shift : alignedOffset page offset ≤ offset
  shifted : (len + (offset - alignedOffset page offset)).toNat =
    len.toNat + (offset.toNat - (alignedOffset page offset).toNat)
  padded : (len + (offset - alignedOffset page offset) + page).toNat =
    (len + (offset - alignedOffset page offset)).toNat + page.toNat
  last : 1 ≤ len + (offset - alignedOffset page offset) + page
  stop : (offset + len).toNat = offset.toNat + len.toNat
  stopPadded : (offset + len + page).toNat = (offset + len).toNat + page.toNat
  stopLast : 1 ≤ offset + len + page
  size : alignedOffset page offset ≤ alignedEnd page offset len

section Rounding

variable {page offset len : Usize} {k : ℕ}

/-- INTERNAL: a page has a byte. -/
theorem page_pos (hpage : page.toNat = 2 ^ k) : 0 < page.toNat := by
  rw [hpage]
  exact Nat.two_pow_pos k

/-- INTERNAL: a word above a nonzero one. -/
theorem one_le_word {a : Usize} (h : 0 < a.toNat) : 1 ≤ a := by
  rw [UInt64.le_iff_toNat_le]
  exact h

/-- INTERNAL: **the mask rounds down to a page.**
SOURCE: sys/mmap.rs:445 -/
theorem alignedOffset_toNat (hpage : page.toNat = 2 ^ k) (offset : Usize) :
    (alignedOffset page offset).toNat = roundDown page.toNat offset.toNat :=
  toNat_maskDown hpage

/-- INTERNAL: the end of a range that leaves room for a page.
SOURCE: sys/mmap.rs:533 -/
theorem alignedEnd_toNat (hpage : page.toNat = 2 ^ k)
    (hroom : offset.toNat + len.toNat + page.toNat < 2 ^ 64) :
    (alignedEnd page offset len).toNat = roundUp page.toNat (offset.toNat + len.toNat) := by
  have hpos := page_pos hpage
  have hstop : (offset + len).toNat = offset.toNat + len.toNat := by
    apply toNat_add_of_fits
    omega
  have hpadded : (offset + len + page).toNat = offset.toNat + len.toNat + page.toNat := by
    rw [toNat_add_of_fits (by omega), hstop]
  have hone : 1 ≤ offset + len + page := by
    apply one_le_word
    omega
  rw [alignedEnd, toNat_maskDown hpage, toNat_sub_of_ge hone, hpadded, roundUp_eq]
  rfl

/-- INTERNAL: none of the roundings wraps, on a range that leaves room for a page.
SOURCE: sys/mmap.rs:445-446, 484-485, 532-534 -/
theorem noWrap_of_room (hpage : page.toNat = 2 ^ k)
    (hroom : offset.toNat + len.toNat + page.toNat < 2 ^ 64) : NoWrap page offset len := by
  have hpos := page_pos hpage
  have hdown := alignedOffset_toNat hpage offset
  have hle := roundDown_le page.toNat offset.toNat
  have hshift : alignedOffset page offset ≤ offset := by
    rw [UInt64.le_iff_toNat_le]
    omega
  have hsub := toNat_sub_of_ge hshift
  have hshifted : (len + (offset - alignedOffset page offset)).toNat =
      len.toNat + (offset.toNat - (alignedOffset page offset).toNat) := by
    rw [toNat_add_of_fits (by omega), hsub]
  have hpadded : (len + (offset - alignedOffset page offset) + page).toNat =
      (len + (offset - alignedOffset page offset)).toNat + page.toNat := by
    apply toNat_add_of_fits
    omega
  have hstop : (offset + len).toNat = offset.toNat + len.toNat := by
    apply toNat_add_of_fits
    omega
  have hstopPadded : (offset + len + page).toNat = (offset + len).toNat + page.toNat := by
    apply toNat_add_of_fits
    omega
  have hsize : alignedOffset page offset ≤ alignedEnd page offset len := by
    rw [UInt64.le_iff_toNat_le, hdown, alignedEnd_toNat hpage hroom]
    apply roundDown_le_roundUp hpos
    omega
  exact {
    mask := one_le_word hpos
    shift := hshift
    shifted := hshifted
    padded := hpadded
    last := one_le_word (by omega)
    stop := hstop
    stopPadded := hstopPadded
    stopLast := one_le_word (by omega)
    size := hsize }

/-- INTERNAL: **the length that is rounded up** reaches the end of the last page.
SOURCE: sys/mmap.rs:446, 485 -/
theorem alignedLen_toNat (hpage : page.toNat = 2 ^ k)
    (hroom : offset.toNat + len.toNat + page.toNat < 2 ^ 64) :
    (alignedLen page offset len).toNat =
      roundUp page.toNat (offset.toNat + len.toNat) - roundDown page.toNat offset.toNat := by
  have hwrap := noWrap_of_room hpage hroom
  rw [alignedLen, toNat_maskDown hpage, toNat_sub_of_ge hwrap.last, hwrap.padded,
    hwrap.shifted, alignedOffset_toNat hpage, ← roundOut_len (page_pos hpage)]
  rfl

/-- INTERNAL: **the two formulas agree.**
SOURCE: sys/mmap.rs:446, 485, 532-534 -/
theorem mincoreLen_eq (hpage : page.toNat = 2 ^ k)
    (hroom : offset.toNat + len.toNat + page.toNat < 2 ^ 64) :
    RawMmap.mincoreLen page offset len = alignedLen page offset len := by
  apply UInt64.toNat_inj.mp
  rw [RawMmap.mincoreLen, toNat_sub_of_ge (noWrap_of_room hpage hroom).size,
    alignedEnd_toNat hpage hroom, alignedOffset_toNat hpage, alignedLen_toNat hpage hroom]

/-- INTERNAL: a range of whole pages has as many status bytes as it has pages.
SOURCE: sys/mmap.rs:535, 541 -/
theorem pages_of_size (hpage : 0 < page.toNat) {n m : ℕ} :
    (roundUp page.toNat m - roundDown page.toNat n + page.toNat - 1) / page.toNat =
      (roundUp page.toNat m - roundDown page.toNat n) / page.toNat := by
  rw [roundUp, roundDown, ← Nat.mul_sub, Nat.add_sub_assoc hpage, Nat.mul_add_div hpage,
    Nat.div_eq_of_lt (Nat.sub_lt hpage Nat.one_pos), Nat.mul_div_cancel_left _ hpage, Nat.add_zero]

/-- INTERNAL: the address of a page of the range.
SOURCE: sys/mmap.rs:538 -/
theorem page_address (hpage : page.toNat = 2 ^ k) (ptr : Usize) (i : ℕ) :
    ptr + alignedOffset page offset + page * UInt64.ofNat i =
      ptr + UInt64.ofNat (page.toNat * (offset.toNat / page.toNat + i)) := by
  have hdown : alignedOffset page offset =
      UInt64.ofNat (page.toNat * (offset.toNat / page.toNat)) := by
    rw [← UInt64.ofNat_toNat (x := alignedOffset page offset), alignedOffset_toNat hpage]
    rfl
  rw [hdown, UInt64.add_assoc, Nat.mul_add, UInt64.ofNat_add, UInt64.ofNat_mul _ i,
    UInt64.ofNat_toNat]

/-- INTERNAL: `mincore` inside the mapping: the vector has an entry for each status byte,
and they are those of the pages that the range meets.
SOURCE: sys/mmap.rs:523-553 -/
theorem mincore_inside (raw : RawMmap) (hpage : page.toNat = 2 ^ k)
    (hroom : offset.toNat + len.toNat + page.toNat < 2 ^ 64)
    (hin : raw.exceeds offset len = false) (kernel : RangeKernel) :
    let ptr := raw.ptr + alignedOffset page offset
    let size := alignedLen page offset len
    let call := RangeCall.mincore ptr size (size.toNat / page.toNat)
    (raw.mincore page kernel offset len).calls = [call] ∧
      (kernel.statuses page ptr size).length = size.toNat / page.toNat ∧
      (kernel.errno call = none →
        (raw.mincore page kernel offset len).result =
          .ok ((List.range (size.toNat / page.toNat)).map fun i =>
            kernel.status (raw.ptr +
              UInt64.ofNat (page.toNat * (offset.toNat / page.toNat + i))) &&& 1 != 0)) := by
  intro ptr size call
  have hsize : size.toNat = roundUp page.toNat (offset.toNat + len.toNat) -
      roundDown page.toNat offset.toNat := alignedLen_toNat hpage hroom
  have hlength : (kernel.statuses page ptr size).length = size.toNat / page.toNat := by
    rw [RangeKernel.statuses, List.length_map, List.length_range, hsize,
      pages_of_size (page_pos hpage)]
  have hcalls : (raw.mincore page kernel offset len).calls = [call] := by
    unfold RawMmap.mincore
    rw [hin, if_neg Bool.false_ne_true, mincoreLen_eq hpage hroom, UInt64.toNat_div]
    cases hk : kernel.errno call <;> simp only [ptr, size, call] at hk ⊢ <;> rw [hk]
  refine ⟨hcalls, hlength, ?_⟩
  intro hk
  have hvec : (List.replicate (size.toNat / page.toNat) (0 : UInt8)).drop
      (kernel.statuses page ptr size).length = [] := by
    rw [hlength]
    apply List.drop_eq_nil_of_le
    rw [List.length_replicate]
  unfold RawMmap.mincore
  rw [hin, if_neg Bool.false_ne_true, mincoreLen_eq hpage hroom, UInt64.toNat_div]
  simp only [ptr, size, call] at hk hvec hsize ⊢
  rw [hk]
  simp only [hvec, List.append_nil]
  rw [RangeKernel.statuses, List.map_map, hsize, pages_of_size (page_pos hpage), ← hsize]
  congr 1
  apply List.map_congr_left
  intro i _
  rw [Function.comp_apply, page_address hpage]

/-- INTERNAL: a pointer to a page of a mapping that starts at a page.
SOURCE: sys/mmap.rs:447, 486, 538 -/
theorem page_dvd_ptr (hpage : page.toNat = 2 ^ k) {ptr : Usize} (hbase : page.toNat ∣ ptr.toNat) :
    page.toNat ∣ (ptr + alignedOffset page offset).toNat := by
  have hk : k ≤ 64 := by
    have hlt := page.toNat_lt
    rw [hpage] at hlt
    exact (Nat.pow_lt_pow_iff_right (by omega)).mp hlt |>.le
  have hwords : page.toNat ∣ 2 ^ 64 := by
    rw [hpage]
    exact Nat.pow_dvd_pow 2 hk
  rw [UInt64.toNat_add, alignedOffset_toNat hpage, Nat.dvd_mod_iff hwords]
  exact Nat.dvd_add hbase (Nat.dvd_mul_right _ _)

end Rounding

/-- RESULT: **page rounding is exact.** On a range inside the mapping, `advise_range`, `flush`
and `mincore` pass the same bytes to the kernel: the pages that the range meets, which are
pages of the mapping. No sum or difference on the way wraps, except that the pointer to the
end of the address space is the word 0. The vector of `mincore` has an entry for each status
byte that the kernel writes, the `i`-th for the `i`-th page from that of the offset on.
SOURCE: sys/mmap.rs:436-553 -/
theorem page_rounding_exact (raw : RawMmap) (page offset len : Usize) (k : ℕ)
    (kernel : RangeKernel) (advice : Advice) (asyncFlush : Bool)
    (hpage : page.toNat = 2 ^ k) (hbase : page.toNat ∣ raw.ptr.toNat)
    (hroom : raw.len.toNat + 2 ^ k < 2 ^ 64)
    (hin : offset.toNat + len.toNat ≤ raw.len.toNat) :
    let first := page.toNat * (offset.toNat / page.toNat)
    let last := page.toNat * ((offset.toNat + len.toNat) ⌈/⌉ page.toNat)
    ∃ ptr size : Usize,
      (raw.adviseRange page kernel advice offset len).calls = [.madvise ptr size advice] ∧
      (raw.flush page kernel offset len asyncFlush).calls = [.msync ptr size asyncFlush] ∧
      (raw.mincore page kernel offset len).calls =
        [.mincore ptr size (size.toNat / page.toNat)] ∧
      page.toNat ∣ ptr.toNat ∧ ptr.toNat = (raw.ptr.toNat + first) % 2 ^ 64 ∧
      (raw.ptr.toNat + raw.len.toNat ≤ 2 ^ 64 → raw.ptr.toNat + first ≠ 2 ^ 64 →
        ptr.toNat = raw.ptr.toNat + first) ∧
      first + size.toNat = last ∧
      last ≤ page.toNat * (raw.len.toNat ⌈/⌉ page.toNat) ∧
      NoWrap page offset len ∧
      (kernel.statuses page ptr size).length = size.toNat / page.toNat ∧
      (kernel.errno (.mincore ptr size (size.toNat / page.toNat)) = none →
        (raw.mincore page kernel offset len).result =
          .ok ((List.range (size.toNat / page.toNat)).map fun i =>
            kernel.status (raw.ptr +
              UInt64.ofNat (page.toNat * (offset.toNat / page.toNat + i))) &&& 1 != 0)) := by
  intro first last
  have hfits : offset.toNat + len.toNat + page.toNat < 2 ^ 64 := by
    rw [hpage]
    omega
  have hinside := RawMmap.exceeds_eq_false_iff.mpr hin
  have hptr : (raw.ptr + alignedOffset page offset).toNat =
      (raw.ptr.toNat + first) % 2 ^ 64 := by
    rw [UInt64.toNat_add, alignedOffset_toNat hpage]
    rfl
  have hfirst : first ≤ offset.toNat := Nat.mul_div_le _ _
  have hsize := alignedLen_toNat hpage hfits
  have hle : first ≤ last :=
    roundDown_le_roundUp (page_pos hpage) (Nat.le_add_right offset.toNat len.toNat)
  obtain ⟨hmincore, hstatuses, hresult⟩ := mincore_inside raw hpage hfits hinside kernel
  refine ⟨raw.ptr + alignedOffset page offset, alignedLen page offset len, ?_, ?_, hmincore,
    page_dvd_ptr hpage hbase, hptr, ?_, ?_, ?_, noWrap_of_room hpage hfits, hstatuses, hresult⟩
  · exact RawMmap.rangeCall_calls hinside _ _ _
  · exact RawMmap.rangeCall_calls hinside _ _ _
  · intro hspace hend
    rw [hptr]
    apply Nat.mod_eq_of_lt
    omega
  · rw [hsize]
    exact Nat.add_sub_cancel' hle
  · exact roundUp_mono hin

/-- INTERNAL: a range across the end of the first page of a mapping of three.
SOURCE: sys/mmap.rs:436-462 -/
theorem page_rounding_exact_twoPages :
    ∃ ptr size : Usize,
      (RawMmap.adviseRange ⟨0x10000, 10000, true⟩ 4096 ⟨fun _ => none, fun _ => 1⟩ .dontNeed
        4000 200).calls = [.madvise ptr size .dontNeed] ∧
      ptr.toNat = 0x10000 % 2 ^ 64 ∧ size.toNat = 8192 := by
  obtain ⟨ptr, size, hcalls, -, -, -, hptr, -, hsize, -⟩ :=
    page_rounding_exact ⟨0x10000, 10000, true⟩ 4096 4000 200 12 ⟨fun _ => none, fun _ => 1⟩
      .dontNeed false rfl (by decide) (by decide) (by decide)
  refine ⟨ptr, size, hcalls, hptr, ?_⟩
  simpa [Nat.ceilDiv_eq_add_pred_div] using hsize

end MmapShield.Analysis
