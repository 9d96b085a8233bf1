import MmapShield.Computation.Result
import MmapShield.Computation.Words
import MmapShield.Model.Fallback

/-!
# The mapping and the fallback

`SafeMmap::read` and `PreadReader::read` on one unchanged file. `mmap_read` says what the
first of them returns for every range of words: it refuses all that are not inside the file.
`reader_inside`, `reader_refuses`, `reader_inverted` and `reader_aborts` are the cases of the
second one, which lets an inverted range pass when its end is inside the file.
`read_paths_agree_iff` puts the two together.
-/

set_option autoImplicit false

namespace MmapShield.Analysis

open MmapShield.Computation MmapShield.Model

variable {ρ : Type}

/-! ## Filling the buffer -/

/-- INTERNAL: a read into the buffer keeps its length. -/
theorem overwrite_length (buf : List UInt8) {total : ℕ} (bytes : List UInt8)
    (h : total + bytes.length ≤ buf.length) :
    (overwrite buf total bytes).length = buf.length := by
  simp only [overwrite, List.length_append, List.length_take, List.length_drop]
  omega

/-- INTERNAL: the bytes of a read follow those that are there. -/
theorem overwrite_take (buf : List UInt8) {total : ℕ} (bytes : List UInt8)
    (h : total + bytes.length ≤ buf.length) :
    (overwrite buf total bytes).take (total + bytes.length) = buf.take total ++ bytes := by
  unfold overwrite
  apply List.take_left'
  simp only [List.length_append, List.length_take]
  omega

/-- INTERNAL: a call of `pread` inside the file transfers what is there, at least one byte
and at most what was asked for.
SOURCE: sys/pread.rs:29-34 -/
theorem pread_inside (file : FileContents) (short : ℕ → ℕ) (n : ℕ) (fd : ℤ)
    (start total want : ℕ) (hwant : 0 < want) (h : start + total + want ≤ file.bytes.length) :
    ∃ m, 0 < m ∧ m ≤ want ∧
      file.pread short n fd (UInt64.ofNat want) (Int64.ofNat start + Int64.ofNat total) =
        .ok ((file.bytes.drop (start + total)).take m) := by
  have hsmall := file.small
  have hoffset : (Int64.ofNat start + Int64.ofNat total).toInt = ((start + total : ℕ) : ℤ) := by
    rw [← Int64.ofNat_add]
    apply Int64.toInt_ofNat_of_lt
    omega
  have hcount : (UInt64.ofNat want).toNat = want := by
    apply UInt64.toNat_ofNat_of_lt'
    simp only [UInt64.size]
    omega
  refine ⟨min want (max 1 (short n)), ?_, ?_, ?_⟩
  · omega
  · omega
  · unfold FileContents.pread
    rw [hoffset, if_neg (by omega), hcount, Int.toNat_natCast]

/-- INTERNAL: **the loop fills the buffer**, whatever counts the calls return. The first
`total` bytes are right already, and each call adds at least one.
SOURCE: sys/pread.rs:25-51 -/
theorem preadLoop_fills (file : FileContents) (short : ℕ → ℕ) (fd : ℤ) (start : ℕ)
    (n total : ℕ) (buf : List UInt8) (hinside : start + buf.length ≤ file.bytes.length)
    (htotal : total ≤ buf.length) (hfilled : buf.take total = (file.bytes.drop start).take total) :
    (preadLoop (file.pread short) fd (Int64.ofNat start) n total buf).result = .ok () ∧
    (preadLoop (file.pread short) fd (Int64.ofNat start) n total buf).buf =
      (file.bytes.drop start).take buf.length := by
  induction hleft : buf.length - total using Nat.strongRecOn generalizing n total buf with
  | ind left ih =>
    unfold preadLoop
    by_cases hlt : total < buf.length
    · obtain ⟨m, hpos, hle, hread⟩ :=
        pread_inside file short n fd start total (buf.length - total) (by omega) (by omega)
      have hlength : ((file.bytes.drop (start + total)).take m).length = m := by
        rw [List.length_take, List.length_drop]
        omega
      have hroom : total + ((file.bytes.drop (start + total)).take m).length ≤ buf.length := by
        omega
      rw [dif_pos hlt, hread]
      simp only
      rw [dif_neg (by omega)]
      have hnext := ih (buf.length - (total + m)) (by omega) (n + 1) (total + m)
        (overwrite buf total ((file.bytes.drop (start + total)).take m))
        (by rw [overwrite_length buf _ hroom]; exact hinside)
        (by rw [overwrite_length buf _ hroom]; omega)
        (by
          have htake := overwrite_take buf _ hroom
          rw [hlength] at htake
          rw [htake, hfilled, List.take_add, List.drop_drop])
        (by rw [overwrite_length buf _ hroom])
      rw [overwrite_length buf _ hroom] at hnext
      rw [hlength]
      exact hnext
    · have hall : total = buf.length := by omega
      rw [dif_neg hlt]
      refine ⟨rfl, ?_⟩
      rw [hall, List.take_length] at hfilled
      exact hfilled

/-! ## Ranges of words -/

/-- INTERNAL: the length of a file is a word. -/
theorem file_len_toNat (file : FileContents) : file.len.toNat = file.bytes.length := by
  have hsmall := file.small
  unfold FileContents.len
  apply UInt64.toNat_ofNat_of_lt'
  simp only [UInt64.size]
  omega

/-- INTERNAL: the bounds check of a guard, on the difference that wraps, accepts the
ranges that are inside the mapping and no others.
SOURCE: mmap/mod.rs:511, mmap/guard.rs:99-108 -/
theorem range_check (start stop limit : Usize) :
    ((checkedAdd start (stop - start)).elim true fun e => decide (e > limit)) =
      decide (¬ (start ≤ stop ∧ stop ≤ limit)) := by
  unfold checkedAdd
  by_cases hle : start ≤ stop
  · have hsub := toNat_sub_of_ge hle
    have hstop := UInt64.toNat_lt stop
    have hsum : start + (stop - start) = stop := by
      rw [UInt64.add_comm, UInt64.sub_add_cancel]
    rw [UInt64.le_iff_toNat_le] at hle
    rw [if_pos (by omega), hsum, Option.elim_some]
    apply decide_eq_decide.mpr
    rw [UInt64.le_iff_toNat_le, UInt64.le_iff_toNat_le, gt_iff_lt, UInt64.lt_iff_toNat_lt]
    omega
  · have hsub := toNat_sub_of_gt (UInt64.not_le.mp hle)
    rw [UInt64.not_le, UInt64.lt_iff_toNat_lt] at hle
    have hstart := UInt64.toNat_lt start
    rw [if_neg (by omega), Option.elim_none]
    symm
    rw [decide_eq_true_iff, UInt64.le_iff_toNat_le]
    omega

/-! ## The mapping -/

/-- The default options with an offset. -/
def window (offset : UInt64) : SafeMmapOptions := { SafeMmapOptions.new with offset := offset }

/-- INTERNAL: a mapping of the file from a page on opens, and ends where the file does.
SOURCE: mmap/mod.rs:328-407, sys/mmap.rs:227-286 -/
theorem open_window (file : FileContents) (page : Usize) (fd : ℤ) (place : MmapCall → Usize)
    {offset : UInt64} (haligned : offset % page = 0) (hoffset : offset < file.len) :
    ∃ ptr, (window offset).open page (file.kernel fd place) =
      .ok ((window offset).finish ⟨ptr, file.len - offset, false⟩) := by
  have hlen : file.len ≠ 0 := by
    intro hzero
    rw [hzero] at hoffset
    exact UInt64.not_lt_zero hoffset
  have hmapped : file.len - offset ≠ 0 := by
    intro hzero
    have hnat := congrArg UInt64.toNat hzero
    rw [toNat_sub_of_ge (UInt64.le_of_lt hoffset)] at hnat
    rw [UInt64.lt_iff_toNat_lt] at hoffset
    simp at hnat
    omega
  have hmapLen : (window offset).mapLen file.len = .ok (file.len - offset) := by
    have hbelow : ¬ offset ≥ file.len := UInt64.not_le.mpr hoffset
    simp [SafeMmapOptions.mapLen, window, SafeMmapOptions.new, hlen, hbelow, hmapped]
    rfl
  have hraw : ((window offset).mmapOptions (file.len - offset) fd).map page
      (file.kernel fd place).mmap =
        .ok ⟨place ((window offset).mmapOptions (file.len - offset) fd).call, file.len - offset,
          false⟩ := by
    have hlength : ((window offset).mmapOptions (file.len - offset) fd).len ≠ 0 := hmapped
    have hstart : ((window offset).mmapOptions (file.len - offset) fd).offset % page = 0 := haligned
    unfold MmapOptions.map
    rw [if_neg hlength, if_neg (not_not.mpr hstart)]
    rfl
  refine ⟨place ((window offset).mmapOptions (file.len - offset) fd).call, ?_⟩
  have hopen : (window offset).openRaw page (file.kernel fd place) =
      .ok ⟨place ((window offset).mmapOptions (file.len - offset) fd).call, file.len - offset,
        false⟩ := by
    unfold SafeMmapOptions.openRaw
    refine bind_eq_ok.mpr ⟨fd, rfl, ?_⟩
    refine bind_eq_ok.mpr ⟨file.len, rfl, ?_⟩
    refine bind_eq_ok.mpr ⟨file.len - offset, hmapLen, ?_⟩
    exact mapError_eq_ok.mpr hraw
  unfold SafeMmapOptions.open
  rw [hopen]
  rfl

/-- INTERNAL: touches that do not fault are all made.
SOURCE: mmap/guard.rs:117-122 -/
theorem touchAll_quiet {mem : Memory} (h : ∀ n addr, mem.faults n addr = false) (n : ℕ)
    (addrs : List Usize) : mem.touchAll n addrs = (addrs, .ok ()) := by
  induction addrs generalizing n with
  | nil => rfl
  | cons addr rest ih =>
    unfold Memory.touchAll
    rw [h n addr, ih (n + 1)]
    simp

/-- INTERNAL: a slice of the mapping holds the bytes of the file. -/
theorem memory_slice (file : FileContents) (ptr : Usize) (offset : UInt64) (start len : Usize)
    (h : offset.toNat + start.toNat + len.toNat ≤ file.bytes.length) :
    (file.memory ptr offset).slice (ptr + start) len =
      (file.bytes.drop (offset.toNat + start.toNat)).take len.toNat := by
  have hsmall := file.small
  apply List.ext_getElem
  · simp only [Memory.slice, wordsBelow, List.length_map, List.length_range, List.length_take,
      List.length_drop]
    omega
  · intro i hi hj
    have hlt : i < len.toNat := by
      simpa [Memory.slice, wordsBelow] using hi
    have hword : (UInt64.ofNat i).toNat = i := by
      apply UInt64.toNat_ofNat_of_lt'
      simp only [UInt64.size]
      omega
    -- the address minus the start of the mapping is the index again
    have hindex : (ptr + start + UInt64.ofNat i - ptr).toNat = start.toNat + i := by
      have hcancel : ptr + start + UInt64.ofNat i - ptr = start + UInt64.ofNat i := by
        rw [UInt64.add_assoc, UInt64.add_comm, UInt64.add_sub_cancel]
      rw [hcancel, toNat_add_of_fits (by omega), hword]
    simp only [Memory.slice, wordsBelow, FileContents.memory, List.getElem_map, List.getElem_range,
      List.getElem_take, List.getElem_drop, hindex]
    rw [List.getD_eq_getElem?_getD, List.getElem?_eq_getElem (by omega), Option.getD_some]
    congr 1
    omega

/-- INTERNAL: **what a read of the mapping returns** for every range of words.
SOURCE: mmap/mod.rs:503-518, mmap/guard.rs:93-128 -/
theorem mmap_read (file : FileContents) (ptr : Usize) {offset : UInt64}
    (hoffset : offset < file.len) (start stop : Usize) (f : Closure ρ) :
    (((window offset).finish ⟨ptr, file.len - offset, false⟩).read (file.memory ptr offset) start
        stop f).result =
      if start ≤ stop ∧ stop ≤ file.len - offset then
        .ok (f.value (file.slice (offset + start) (offset + stop)))
      else .error (.outOfBounds start (stop - start) (file.len - offset)) := by
  have hgate : ((window offset).finish ⟨ptr, file.len - offset, false⟩).checkPoisoned = .ok () :=
    rfl
  unfold SafeMmap.read
  rw [hgate]
  simp only
  unfold ReadGuard.read
  rw [show ((window offset).finish ⟨ptr, file.len - offset, false⟩).raw =
    ⟨ptr, file.len - offset, false⟩ from rfl]
  simp only [range_check, decide_eq_true_eq]
  by_cases hin : start ≤ stop ∧ stop ≤ file.len - offset
  · rw [if_neg (not_not.mpr hin), if_pos hin, touchAll_quiet (fun _ _ => rfl)]
    simp only [SafeMmap.settle]
    have hsub := toNat_sub_of_ge hin.1
    have hlen := file_len_toNat file
    have hrest := toNat_sub_of_ge (UInt64.le_of_lt hoffset)
    have hsmall := file.small
    simp only [UInt64.le_iff_toNat_le] at hin
    rw [UInt64.lt_iff_toNat_lt] at hoffset
    have hstart : (offset + start).toNat = offset.toNat + start.toNat := by
      apply toNat_add_of_fits
      omega
    have hstop : (offset + stop).toNat = offset.toNat + stop.toNat := by
      apply toNat_add_of_fits
      omega
    rw [memory_slice file ptr offset start (stop - start) (by omega), hsub]
    unfold FileContents.slice
    rw [hstart, hstop, Nat.add_sub_add_left]
  · rw [if_pos hin, if_neg hin]
    rfl

/-! ## The fallback -/

/-- The allocator serves a buffer of `len` bytes; an empty one needs no memory. -/
def Serves (alloc : Usize → Bool) (len : Usize) : Prop := len = 0 ∨ alloc len = true

variable (file : FileContents) (fd : ℤ) (alloc : Usize → Bool) (short : ℕ → ℕ)

/-- INTERNAL: **a range inside the file** is read exactly, whatever counts `pread` returns,
unless there is no memory for the buffer.
SOURCE: fallback/mod.rs:82-102, sys/pread.rs:24-52 -/
theorem reader_inside {start stop : Usize} (f : List UInt8 → ρ) (hle : start ≤ stop)
    (hstop : stop ≤ file.len) (hserves : Serves alloc (stop - start)) :
    (PreadReader.mk fd file.len).read alloc (file.pread short) start stop f =
      .returned (.ok (f (file.slice start stop))) := by
  have hsub := toNat_sub_of_ge hle
  have hlen := file_len_toNat file
  have hsmall := file.small
  rw [UInt64.le_iff_toNat_le] at hle
  have hstopNat := UInt64.le_iff_toNat_le.mp hstop
  have hvec : vecZeroed alloc (stop - start) =
      .returned (List.replicate (stop - start).toNat 0) := by
    unfold Serves at hserves
    unfold vecZeroed
    rw [if_neg (by omega), if_pos hserves]
  have hoffset : start.toInt64 = Int64.ofNat start.toNat := by
    rw [← UInt64.toInt64_ofNat', UInt64.ofNat_toNat]
  obtain ⟨hresult, hbuf⟩ := preadLoop_fills file short fd start.toNat 0 0
    (List.replicate (stop - start).toNat 0) (by rw [List.length_replicate]; omega)
    (Nat.zero_le _) (by rw [List.take_zero, List.take_zero])
  unfold PreadReader.read
  simp only
  rw [if_neg (UInt64.not_lt.mpr hstop), hvec]
  simp only [preadExact]
  rw [hoffset, hresult, hbuf, List.length_replicate, hsub]
  rfl

/-- INTERNAL: a range that ends after the file is refused.
SOURCE: fallback/mod.rs:90-96 -/
theorem reader_refuses {start stop : Usize} (f : List UInt8 → ρ) (hstop : file.len < stop) :
    (PreadReader.mk fd file.len).read alloc (file.pread short) start stop f =
      .returned (.error (.outOfBounds start (stop - start) file.len)) := by
  unfold PreadReader.read
  simp only
  rw [if_pos hstop]

/-- INTERNAL: **an inverted range that ends inside the file** passes the check. The length has
wrapped: the buffer is too large to exist, or there is no memory for it, or the start is a
negative offset for `pread`.
SOURCE: fallback/mod.rs:87-99 -/
theorem reader_inverted {start stop : Usize} (f : List UInt8 → ρ) (hlt : stop < start)
    (hstop : stop ≤ file.len) (result : Except AccessError ρ)
    (h : (PreadReader.mk fd file.len).read alloc (file.pread short) start stop f =
      .returned result) :
    result = .error (.io (.lastOsError 22)) := by
  have hsub := toNat_sub_of_gt hlt
  have hstart := UInt64.toNat_lt start
  rw [UInt64.lt_iff_toNat_lt] at hlt
  unfold PreadReader.read at h
  simp only at h
  rw [if_neg (UInt64.not_lt.mpr hstop)] at h
  unfold vecZeroed at h
  split at h
  · cases h
  · cases h
  · rename_i buf hbuf
    split at hbuf
    · cases hbuf
    · rename_i hfits
      split at hbuf
      · cases hbuf
        have hnegative : start.toInt64.toInt < 0 := by
          apply toInt64_negative
          omega
        have hcall : file.pread short 0 fd
            (UInt64.ofNat ((List.replicate (stop - start).toNat (0 : UInt8)).length - 0))
            (start.toInt64 + Int64.ofNat 0) = .error (.lastOsError 22) := by
          unfold FileContents.pread
          rw [show Int64.ofNat 0 = 0 from rfl, Int64.add_zero, if_pos hnegative]
        have hfailed : (preadExact (file.pread short) fd
            (List.replicate (stop - start).toNat 0) start.toInt64).result =
              .error (.io (.lastOsError 22)) := by
          unfold preadExact preadLoop
          rw [dif_pos (by rw [List.length_replicate]; omega), hcall]
        simp only [hfailed] at h
        cases h
        rfl
      · cases hbuf

/-- INTERNAL: without memory for the buffer a read of a range inside the file aborts.
SOURCE: fallback/mod.rs:98 -/
theorem reader_aborts {start stop : Usize} (f : List UInt8 → ρ) (hle : start ≤ stop)
    (hstop : stop ≤ file.len) (hserves : ¬ Serves alloc (stop - start)) :
    (PreadReader.mk fd file.len).read alloc (file.pread short) start stop f = .aborted := by
  have hsub := toNat_sub_of_ge hle
  have hlen := file_len_toNat file
  have hsmall := file.small
  have hstopNat := UInt64.le_iff_toNat_le.mp hstop
  have hvec : vecZeroed alloc (stop - start) = .aborted := by
    unfold Serves at hserves
    unfold vecZeroed
    rw [if_neg (by omega), if_neg hserves]
  unfold PreadReader.read
  simp only
  rw [if_neg (UInt64.not_lt.mpr hstop), hvec]

/-! ## The two paths -/

variable (page : Usize) (place : MmapCall → Usize)

/-- Both paths open the file and return the same: what the closure makes of the range of the
file, or that the range is out of bounds. -/
def Agree (start stop : Usize) (f : Closure ρ) : Prop :=
  ∃ mmap reader result,
    SafeMmapOptions.new.open page (file.kernel fd place) = .ok mmap ∧
    PreadReader.open (file.kernel fd place) = .ok reader ∧
    (mmap.read (file.memory mmap.raw.ptr 0) start stop f).result = result ∧
    reader.read alloc (file.pread short) start stop f.value = .returned result ∧
    (result = .ok (f.value (file.slice start stop)) ∨
      result = .error (.outOfBounds start (stop - start) file.len))

/-- INTERNAL: the range is inside the file or ends after it, and there is memory for it.
SOURCE: fallback/mod.rs:82-102, mmap/mod.rs:503-518 -/
theorem agree_of {start stop : Usize} (f : Closure ρ)
    (h : file.len < stop ∨ start ≤ stop ∧ Serves alloc (stop - start)) :
    Agree file fd alloc short page place start stop f := by
  have hpos : (0 : UInt64) < file.len := by
    have hnonempty := file.nonempty
    rw [UInt64.lt_iff_toNat_lt, file_len_toNat]
    exact hnonempty
  obtain ⟨ptr, hopen⟩ := open_window file page fd place UInt64.zero_mod hpos
  have hread := mmap_read file ptr hpos start stop f
  rw [UInt64.sub_zero] at hopen hread
  rw [UInt64.zero_add, UInt64.zero_add] at hread
  by_cases hstop : file.len < stop
  · rw [if_neg (fun hin => UInt64.not_lt.mpr hin.2 hstop)] at hread
    exact ⟨_, _, _, hopen, rfl, hread, reader_refuses file fd alloc short f.value hstop, Or.inr rfl⟩
  · have hinside := UInt64.not_lt.mp hstop
    rcases h with hbeyond | ⟨hle, hserves⟩
    · exact absurd hbeyond hstop
    · rw [if_pos ⟨hle, hinside⟩] at hread
      exact ⟨_, _, _, hopen, rfl, hread,
        reader_inside file fd alloc short f.value hle hinside hserves, Or.inl rfl⟩

/-- INTERNAL: in the other cases the fallback does not return, or it returns another error.
SOURCE: fallback/mod.rs:82-102 -/
theorem not_agree_of {start stop : Usize} (f : Closure ρ)
    (h : ¬ (file.len < stop ∨ start ≤ stop ∧ Serves alloc (stop - start))) :
    ¬ Agree file fd alloc short page place start stop f := by
  rintro ⟨mmap, reader, result, -, hreader, -, hread, hresult⟩
  cases hreader
  have hstop : stop ≤ file.len := UInt64.not_lt.mp fun hbeyond => h (Or.inl hbeyond)
  by_cases hle : start ≤ stop
  · have hserves : ¬ Serves alloc (stop - start) := fun hs => h (Or.inr ⟨hle, hs⟩)
    rw [reader_aborts file fd alloc short f.value hle hstop hserves] at hread
    cases hread
  · have hlt := UInt64.not_le.mp hle
    have hio := reader_inverted file fd alloc short f.value hlt hstop result hread
    rw [hio] at hresult
    rcases hresult with hok | hbounds
    · cases hok
    · cases hbounds

/-- RESULT: **when the two read paths agree.** For every file, every range of words and every
sequence of short counts of `pread`, `SafeMmap::read` and `PreadReader::read` return the same
result if and only if the range ends after the file or is not inverted, and in the second
case there is memory for the buffer. A mapping of the file from a page on ends where the file
does, and every read of it gives the bytes that the fallback reads at the shifted range.
SOURCE: fallback/mod.rs:82-102, mmap/mod.rs:349-392, 503-518, mmap/guard.rs:93-128 -/
theorem read_paths_agree_iff (f : Closure ρ) :
    (∀ start stop, Agree file fd alloc short page place start stop f ↔
      file.len < stop ∨ start ≤ stop ∧ Serves alloc (stop - start)) ∧
    ∀ offset, offset % page = 0 → offset < file.len →
      ∃ mmap reader,
        (window offset).open page (file.kernel fd place) = .ok mmap ∧
        PreadReader.open (file.kernel fd place) = .ok reader ∧
        mmap.raw.len = file.len - offset ∧
        ∀ a b, a ≤ b → b ≤ file.len - offset →
          (mmap.read (file.memory mmap.raw.ptr offset) a b f).result =
            .ok (f.value (file.slice (offset + a) (offset + b))) ∧
          (Serves alloc (b - a) →
            reader.read alloc (file.pread short) (offset + a) (offset + b) f.value =
              .returned (.ok (f.value (file.slice (offset + a) (offset + b))))) := by
  refine ⟨?_, ?_⟩
  · intro start stop
    refine ⟨?_, agree_of file fd alloc short page place f⟩
    intro hagree
    apply Classical.byContradiction
    intro hnot
    exact not_agree_of file fd alloc short page place f hnot hagree
  · intro offset haligned hoffset
    obtain ⟨ptr, hopen⟩ := open_window file page fd place haligned hoffset
    refine ⟨_, _, hopen, rfl, rfl, ?_⟩
    intro a b hab hb
    refine ⟨?_, ?_⟩
    · have hread := mmap_read file ptr hoffset a b f
      rw [if_pos ⟨hab, hb⟩] at hread
      exact hread
    · intro hserves
      have hlen := file_len_toNat file
      have hsmall := file.small
      have hrest := toNat_sub_of_ge (UInt64.le_of_lt hoffset)
      have hlength := toNat_sub_of_ge hab
      rw [UInt64.le_iff_toNat_le] at hab hb
      rw [UInt64.lt_iff_toNat_lt] at hoffset
      have hstart : (offset + a).toNat = offset.toNat + a.toNat := by
        apply toNat_add_of_fits
        omega
      have hstop : (offset + b).toNat = offset.toNat + b.toNat := by
        apply toNat_add_of_fits
        omega
      have hle : offset + a ≤ offset + b := by
        rw [UInt64.le_iff_toNat_le]
        omega
      have hdiff : offset + b - (offset + a) = b - a := by
        apply UInt64.toNat_inj.mp
        rw [toNat_sub_of_ge hle, hstart, hstop, hlength]
        omega
      apply reader_inside file fd alloc short f.value hle
      · rw [UInt64.le_iff_toNat_le]
        omega
      · rw [hdiff]
        exact hserves

/-- A file of ten bytes. -/
def tenBytes : FileContents := ⟨List.replicate 10 7, by decide, by decide⟩

/-- The range `5..2` of a file of ten bytes: the mapping says that it is out of bounds, the
fallback panics. -/
theorem invertedRange_panics :
    (SafeMmapOptions.new.finish ⟨0x10000, 10, false⟩ |>.read (tenBytes.memory 0x10000 0) 5 2
        SafeMmap.firstByte).result = .error (.outOfBounds 5 (2 - 5) 10) ∧
    (PreadReader.mk 3 10).read (fun _ => true) (tenBytes.pread fun _ => 1) 5 2
        SafeMmap.firstByte.value = .panicked "capacity overflow" ∧
    ¬ Agree tenBytes 3 (fun _ => true) (fun _ => 1) 4096 (fun _ => 0x10000) 5 2
        SafeMmap.firstByte := by
  refine ⟨?_, ?_, ?_⟩
  · rfl
  · rfl
  · rintro ⟨mmap, reader, result, -, hreader, -, hread, -⟩
    cases hreader
    cases hread

end MmapShield.Analysis
