import MmapShield.Analysis.TheoremBounds
import MmapShield.Analysis.TheoremPread
import MmapShield.Model.Truncation

/-!
# A file that is truncated while it is mapped

What the two read paths return when other processes change the file. `touchAll_find` says which
touch ends an access, `read_now` what `SafeMmap::read` makes of the file as it is at the call,
and `reader_now` what `PreadReader::read` makes of it. Between the end of the file and the end of
its last page the two differ: the mapping shows zeros there, `pread` is at the end of the file.

`Account` is the invariant of the runs, and `Touched` the one case analysis over an access: it
leaves the mapping alone, or it faults at a byte that the file has no page for.
-/

set_option autoImplicit false

namespace MmapShield.Analysis.Truncation

open MmapShield.Computation MmapShield.Model MmapShield.Analysis

variable {ρ : Type}

/-- The bytes that a mapping of the file shows: those of the file, and zeros after its end. -/
def shown (file : FileState) (first len : ℕ) : List UInt8 :=
  ((file.bytes.drop first).take len).rightpad len 0

/-- The number of faults that poisons the mapping.
SOURCE: mmap/mod.rs:1039-1055 -/
def limit (options : SafeMmapOptions) : ℕ := max 1 options.maxSigbus.toNat

/-- The file has a page for every byte of the mapping. -/
def BacksAll (page : Usize) (raw : RawMmap) (offset : UInt64) (file : FileState) : Prop :=
  ∀ i < raw.len.toNat, file.backs page (offset.toNat + i) = true

/-- The file is not cut below the last page of the mapping. -/
def KeepsPages (page : Usize) (raw : RawMmap) (offset : UInt64) (act : WatchedAct ρ)
    (_ : Watched) : Prop :=
  ∀ file, act = .change file → BacksAll page raw offset file

/-! ## The file as it is at an access -/

section Memory

variable {page ptr : Usize} {offset : UInt64} {file : FileState}

/-- INTERNAL: **the touch that ends an access** is the first one that faults.
SOURCE: mmap/guard.rs:117-127 -/
theorem touchAll_find {mem : Memory} (bad : Usize → Bool)
    (hbad : ∀ n addr, mem.faults n addr = bad addr) (n : ℕ) (addrs : List Usize) :
    (mem.touchAll n addrs).2 = (addrs.find? bad).elim (.ok ()) .error := by
  induction addrs generalizing n with
  | nil => rfl
  | cons addr rest ih =>
      rw [Memory.touchAll, hbad]
      cases hfault : bad addr with
      | true => simp [hfault]
      | false =>
        rw [List.find?_cons_of_neg (by simp [hfault])]
        exact ih (n + 1)

/-- INTERNAL: a byte before the end of the file has a page. -/
theorem backs_of_lt {pos : ℕ} (h : pos < file.bytes.length) : file.backs page pos = true := by
  rw [FileState.backs, decide_eq_true_eq]
  exact (roundDown_le page.toNat pos).trans_lt h

/-- INTERNAL: the index of a byte of the mapping, from its address. -/
theorem index_eq {start i len : Usize} (hi : i < len) (hin : start.toNat + len.toNat ≤ 2 ^ 64) :
    (ptr + start + i - ptr).toNat = start.toNat + i.toNat := by
  have hcancel : ptr + start + i - ptr = start + i := by
    rw [UInt64.add_assoc, UInt64.add_comm, UInt64.add_sub_cancel]
  rw [UInt64.lt_iff_toNat_lt] at hi
  rw [hcancel, toNat_add_of_fits (by omega)]

/-- INTERNAL: a view of the file has the length that is asked for. -/
theorem shown_length (file : FileState) (first len : ℕ) : (shown file first len).length = len := by
  rw [shown, List.length_rightpad, List.length_take]
  omega

/-- INTERNAL: a view of the file shows its bytes, and zero behind its end. -/
theorem shown_getElem {first len i : ℕ} (h : i < (shown file first len).length) :
    (shown file first len)[i] = file.bytes.getD (first + i) 0 := by
  have hi : i < len := by rwa [shown_length] at h
  rw [List.getD_eq_getElem?_getD]
  simp only [shown, List.rightpad, List.getElem_append, List.length_take, List.length_drop,
    List.getElem_take, List.getElem_drop, List.getElem_replicate]
  split
  · rw [List.getElem?_eq_getElem (by omega), Option.getD_some]
  · rw [List.getElem?_eq_none (by omega), Option.getD_none]

/-- INTERNAL: **a range before the end of the file** is shown as it is. -/
theorem shown_inside {first len : ℕ} (h : len = 0 ∨ first + len ≤ file.bytes.length) :
    shown file first len = (file.bytes.drop first).take len := by
  have hlength : ((file.bytes.drop first).take len).length = len := by
    rw [List.length_take, List.length_drop]
    omega
  rw [shown, List.rightpad, hlength, Nat.sub_self, List.replicate_zero, List.append_nil]

/-- INTERNAL: **a slice of the mapping** shows the file as it is. -/
theorem memory_shown {start len : Usize} (hin : start.toNat + len.toNat ≤ 2 ^ 64) :
    (file.memory page ptr offset).slice (ptr + start) len =
      shown file (offset.toNat + start.toNat) len.toNat := by
  apply List.ext_getElem
  · rw [shown_length, Memory.slice, wordsBelow, List.length_map, List.length_map,
      List.length_range]
  · intro i hi hj
    have hlt : i < len.toNat := by rwa [shown_length] at hj
    have hlen := UInt64.toNat_lt len
    have hword : (UInt64.ofNat i).toNat = i :=
      UInt64.toNat_ofNat_of_lt' (show i < 2 ^ 64 by omega)
    have hbelow : UInt64.ofNat i < len := by rwa [UInt64.lt_iff_toNat_lt, hword]
    rw [shown_getElem]
    simp only [Memory.slice, wordsBelow, List.getElem_map, List.getElem_range, FileState.memory]
    rw [index_eq hbelow hin, hword, Nat.add_assoc]

end Memory

/-! ## The two reads -/

section Reads

variable {page ptr : Usize} {offset : UInt64} {file : FileState}

/-- INTERNAL: a range that is not inverted, from its check.
SOURCE: mmap/guard.rs:99-108 -/
theorem range_passed {raw : RawMmap} {start stop : Usize} (hle : start ≤ stop)
    (hstop : stop ≤ raw.len) : raw.exceeds start (stop - start) = false := by
  rw [RawMmap.exceeds_eq_false_iff, toNat_sub_of_ge hle]
  rw [UInt64.le_iff_toNat_le] at hle hstop
  omega

/-- INTERNAL: **a read of the mapping, as the file is now.** It ends at the first index of the
closure whose page is gone, or with what the mapping shows.
SOURCE: mmap/mod.rs:503-518, mmap/guard.rs:93-128 -/
theorem read_now (page : Usize) (offset : UInt64) {s : Watched} {start stop : Usize}
    (f : Closure ρ) (hclean : s.mmap.poisoned = false) (hle : start ≤ stop)
    (hstop : stop ≤ s.mmap.raw.len) :
    (s.mmap.read (s.memory page offset) start stop f).result =
      ((f.touches (stop - start)).find? fun i =>
          !s.file.backs page (offset.toNat + start.toNat + i.toNat)).elim
        (.ok (f.value (shown s.file (offset.toNat + start.toNat) (stop.toNat - start.toNat))))
        fun i => .error (.sigbus (s.mmap.raw.ptr + start + i)) := by
  have hpassed := range_passed hle hstop
  have hlen := toNat_sub_of_ge hle
  have hin : start.toNat + (stop - start).toNat ≤ 2 ^ 64 := by
    have hlt := UInt64.toNat_lt stop
    rw [UInt64.le_iff_toNat_le] at hle
    omega
  have hfind : ((f.touches (stop - start)).map fun i => s.mmap.raw.ptr + start + i).find?
        (fun addr => !s.file.backs page (offset.toNat + (addr - s.mmap.raw.ptr).toNat)) =
      ((f.touches (stop - start)).find? fun i =>
          !s.file.backs page (offset.toNat + start.toNat + i.toNat)).map
        fun i => s.mmap.raw.ptr + start + i := by
    rw [List.find?_map]
    congr 1
    apply List.find?_congr
    intro i hi
    rw [Function.comp_apply, index_eq (f.inside _ i hi) hin, Nat.add_assoc]
  unfold SafeMmap.read
  rw [SafeMmap.checkPoisoned_clean hclean]
  simp only
  rw [guardRead_passed (s.memory page offset) 0 f hpassed, Watched.memory, memory_shown hin, hlen,
    touchAll_find (fun addr =>
      !s.file.backs page (offset.toNat + (addr - s.mmap.raw.ptr).toNat)) (fun _ _ => rfl), hfind]
  cases (f.touches (stop - start)).find? fun i =>
      !s.file.backs page (offset.toNat + start.toNat + i.toNat) with
  | none => rfl
  | some i => rfl

/-- INTERNAL: what `pread` transfers from a position that is no negative offset.
SOURCE: sys/pread.rs:29-34 -/
theorem pread_posix (file : FileState) (short : ℕ → ℕ) : Posix file.bytes (file.pread short) where
  errors := by
    intro n fd count offset e h
    unfold FileState.pread at h
    split at h
    · cases h
      exact ⟨22, rfl⟩
    · cases h
  counts := by
    intro n fd count offset bytes h
    unfold FileState.pread at h
    split at h
    · cases h
    · cases h
      rw [List.length_take]
      omega
  contents := by
    intro n fd count offset bytes h hoffset
    unfold FileState.pread at h
    rw [if_neg (by omega)] at h
    cases h
    rw [List.length_take, List.take_eq_take_iff]
    omega

/-- INTERNAL: **`pread_exact` on the file as it is now** fills the buffer or comes to the end of
the file.
SOURCE: sys/pread.rs:24-52 -/
theorem preadExact_now (file : FileState) (short : ℕ → ℕ) (fd : ℤ) {buf : List UInt8}
    {offset : Int64} (hbuf : buf.length < 2 ^ 63) (hoffset : 0 ≤ offset.toInt) :
    (preadExact (file.pread short) fd buf offset).result =
      if buf.length = 0 ∨ offset.toInt.toNat + buf.length ≤ file.bytes.length then .ok ()
      else .error eofError := by
  obtain ⟨n, total, cur, h, hends⟩ :=
    (LoopAt.start : LoopAt (file.pread short) fd offset buf 0 0 buf).ends
  have hfilled := h.filled (pread_posix file short) file.small hbuf hoffset
  have hsum := hfilled.offset_exact file.small hoffset
  have hlength := hfilled.length
  have hinside := hfilled.inside
  have hposition := hfilled.position
  unfold preadExact
  generalize preadLoop (file.pread short) fd offset 0 0 buf = o at hends
  cases hends with
  | full hge =>
    rw [if_pos (by omega)]
  | failed e hlt hread =>
    unfold answer FileState.pread at hread
    rw [if_neg (by omega)] at hread
    cases hread
  | eof hlt hread =>
    unfold answer FileState.pread at hread
    rw [if_neg (by omega), Except.ok.injEq] at hread
    have hnone := congrArg List.length hread
    have hcount : (UInt64.ofNat (cur.length - total)).toNat = cur.length - total :=
      UInt64.toNat_ofNat_of_lt' (show cur.length - total < 2 ^ 64 by omega)
    rw [List.length_take, List.length_drop, hcount, hsum, List.length_nil] at hnone
    rw [if_neg (by omega)]

/-- INTERNAL: **a read of the fallback, as the file is now.**
SOURCE: fallback/mod.rs:82-102, sys/pread.rs:24-52 -/
theorem reader_now (file : FileState) {len : UInt64} {start stop : Usize} (fd : ℤ)
    (alloc : Usize → Bool) (short : ℕ → ℕ) (f : List UInt8 → ρ) (hle : start ≤ stop)
    (hstop : stop ≤ len) (hlen : len.toNat < 2 ^ 63) (hserves : Serves alloc (stop - start)) :
    (PreadReader.mk fd len).read alloc (file.pread short) start stop f =
      .returned (if start = stop ∨ stop.toNat ≤ file.bytes.length then
        .ok (f (shown file start.toNat (stop.toNat - start.toNat))) else .error eofError) := by
  have hsub := toNat_sub_of_ge hle
  have hleNat := UInt64.le_iff_toNat_le.mp hle
  have hstopNat := UInt64.le_iff_toNat_le.mp hstop
  have hequal : start = stop ↔ stop.toNat - start.toNat = 0 := by
    rw [← UInt64.toNat_inj]
    omega
  have hvec : vecZeroed alloc (stop - start) =
      .returned (List.replicate (stop - start).toNat 0) := by
    unfold Serves at hserves
    unfold vecZeroed
    rw [if_neg (by omega), if_pos hserves]
  have hoffset : start.toInt64.toInt = start.toNat := by
    rw [← UInt64.ofNat_toNat (x := start), UInt64.toInt64_ofNat', UInt64.ofNat_toNat]
    exact Int64.toInt_ofNat_of_lt (show start.toNat < 2 ^ 63 by omega)
  have hbuf : (List.replicate (stop - start).toNat (0 : UInt8)).length < 2 ^ 63 := by
    rw [List.length_replicate]
    omega
  have hresult := preadExact_now file short fd hbuf (show 0 ≤ start.toInt64.toInt by omega)
  have hfull : (preadExact (file.pread short) fd (List.replicate (stop - start).toNat 0)
      start.toInt64).result = .ok () → _ :=
    preadExact_full (pread_posix file short) file.small hbuf (by omega)
  rw [hoffset, List.length_replicate, hsub, Int.toNat_natCast] at hresult hfull
  unfold PreadReader.read
  simp only
  rw [if_neg (UInt64.not_lt.mpr hstop), hvec]
  simp only [hsub, hresult, hequal]
  by_cases hinside : stop.toNat - start.toNat = 0 ∨ stop.toNat ≤ file.bytes.length
  · rw [if_pos (by omega)] at hresult
    rw [if_pos hinside, if_pos (by omega)]
    simp only
    rw [(hfull hresult).1, shown_inside (by omega)]
  · rw [if_neg hinside, if_neg (by omega)]

end Reads

/-! ## The runs -/

/-- The mapping is that of `open`, its counter counts the faults since the last reset, and it is
poisoned when they come to the limit, beyond which there is none. -/
structure Account (options : SafeMmapOptions) (raw : RawMmap) (s : Watched) : Prop where
  region : s.mmap.raw = raw
  max : s.mmap.maxSigbus = options.maxSigbus
  count : s.mmap.sigbusCount.toNat = s.faults
  le : s.faults ≤ limit options
  poisoned : s.mmap.poisoned = true ↔ s.faults = limit options

/-- **What an access does to the mapping**: nothing, or it is a fault at a byte that the file has
no page for, and recorded. -/
inductive Touched (page : Usize) (offset : UInt64) (s : Watched) {κ : Type} (o : Outcome κ) : Prop
  | quiet (hmmap : o.mmap = s.mmap) (hresult : endsInSigbus o.result = false)
  | fault (hclean : s.mmap.poisoned = false) (addr : Usize)
      (hmmap : o.mmap = (s.mmap.recordSigbusFrom (.sigbus addr)).1)
      (hresult : endsInSigbus o.result = true) (i : ℕ) (hi : i < s.mmap.raw.len.toNat)
      (hgone : s.file.backs page (offset.toNat + i) = false)

/-- What a step is. -/
inductive Moved (page : Usize) (offset : UInt64) (s s' : Watched) (act : WatchedAct ρ) : Prop
  | change (file : FileState) (hact : act = .change file) (heq : s' = { s with file := file })
  | reset (heq : s' = { s with mmap := s.mmap.resetPoison, faults := 0 })
  | access {κ : Type} (o : Outcome κ) (htouched : Touched page offset s o) (heq : s' = s.after o)

section Runs

variable {options : SafeMmapOptions} {raw : RawMmap} {page : Usize} {offset : UInt64}
  {s s' : Watched} {κ : Type}

/-- INTERNAL: an access that is refused touches nothing. -/
theorem refuse_quiet {e : AccessError}
    (h : endsInSigbus (.error e : Except AccessError κ) = false) :
    Touched page offset s (s.mmap.refuse e : Outcome κ) :=
  .quiet rfl h

/-- INTERNAL: an access whose touches are all inside the mapping.
SOURCE: mmap/mod.rs:503-839, 1039-1055 -/
theorem settle_touched {addrs : List Usize} {result : Except AccessError κ} (g : Unit → κ)
    (hclean : s.mmap.poisoned = false)
    (hin : ∀ addr ∈ addrs, (addr - s.mmap.raw.ptr).toNat < s.mmap.raw.len.toNat)
    (hresult : result =
      (((s.memory page offset).touchAll 0 addrs).2.mapError AccessError.sigbus).map g)
    (touched : List Usize) (closures : ℕ) :
    Touched page offset s (s.mmap.settle result touched closures) := by
  cases htouch : ((s.memory page offset).touchAll 0 addrs).2 with
  | ok value =>
    rw [htouch] at hresult
    subst hresult
    exact .quiet rfl rfl
  | error addr =>
    obtain ⟨hmem, n, hfault⟩ := touchAll_error htouch
    rw [htouch] at hresult
    subst hresult
    have hgone : s.file.backs page (offset.toNat + (addr - s.mmap.raw.ptr).toNat) = false := by
      simpa [Watched.memory, FileState.memory] using hfault
    exact .fault hclean addr rfl rfl _ (hin addr hmem) hgone

/-- INTERNAL: the bytes of a range inside of the mapping are inside of the mapping. -/
theorem index_inside {start i len : Usize} (hi : i < len)
    (hin : start.toNat + len.toNat ≤ raw.len.toNat) :
    (raw.ptr + start + i - raw.ptr).toNat < raw.len.toNat := by
  have hlt := UInt64.toNat_lt raw.len
  rw [index_eq hi (by omega)]
  rw [UInt64.lt_iff_toNat_lt] at hi
  omega

/-- INTERNAL: a read touches what it may.
SOURCE: mmap/mod.rs:503-518 -/
theorem read_touched (start stop : Usize) (f : Closure κ) :
    Touched page offset s (s.mmap.read (s.memory page offset) start stop f) := by
  unfold SafeMmap.read
  cases hp : s.mmap.poisoned with
  | true =>
    rw [SafeMmap.checkPoisoned_poisoned hp]
    exact refuse_quiet rfl
  | false =>
    rw [SafeMmap.checkPoisoned_clean hp]
    simp only
    cases hcheck : s.mmap.raw.exceeds start (stop - start) with
    | true =>
      rw [guardRead_refused _ 0 f hcheck]
      exact .quiet rfl rfl
    | false =>
      have hin := RawMmap.exceeds_eq_false_iff.mp hcheck
      rw [guardRead_passed _ 0 f hcheck]
      refine settle_touched _ hp ?_ rfl _ _
      intro addr hmem
      obtain ⟨i, hi, rfl⟩ := List.mem_map.mp hmem
      exact index_inside (f.inside _ i hi) hin

/-- INTERNAL: a copy is its touches.
SOURCE: mmap/mod.rs:570-584, 824-838 -/
theorem copy_settles (self : SafeMmap) (mem : Memory) (ptr len : Usize) :
    self.copy mem ptr len =
      self.settle ((mem.touchAll 0 ((wordsBelow len).map fun i => ptr + i)).2.mapError .sigbus)
        (mem.touchAll 0 ((wordsBelow len).map fun i => ptr + i)).1 0 := by
  unfold SafeMmap.copy
  cases hall : mem.touchAll 0 ((wordsBelow len).map fun i => ptr + i) with
  | mk touched result =>
    cases result with
    | ok value => rfl
    | error addr => rfl

/-- INTERNAL: a `read_into` touches what it may.
SOURCE: mmap/mod.rs:815-839 -/
theorem readInto_touched (first : Usize) (buf : Slice) :
    Touched page offset s (s.mmap.readInto (s.memory page offset) first buf) := by
  unfold SafeMmap.readInto
  cases hp : s.mmap.poisoned with
  | true =>
    rw [SafeMmap.checkPoisoned_poisoned hp]
    exact refuse_quiet rfl
  | false =>
    rw [SafeMmap.checkPoisoned_clean hp, checkBounds_eq]
    cases hcheck : s.mmap.raw.exceeds first buf.len with
    | true => exact refuse_quiet rfl
    | false =>
      have hin := RawMmap.exceeds_eq_false_iff.mp hcheck
      simp only [Bool.false_eq_true, if_false]
      rw [copy_settles]
      refine settle_touched id hp ?_ (congrFun Except.map_id _).symm _ _
      intro addr hmem
      obtain ⟨i, hi, rfl⟩ := List.mem_map.mp hmem
      exact index_inside (mem_wordsBelow i hi) hin

/-- INTERNAL: a probe ends and touches what it may.
SOURCE: mmap/mod.rs:668-686 -/
theorem probe_touched (offset : UInt64) (hpage : 0 < page.toNat)
    (hroom : s.mmap.raw.len.toNat + page.toNat ≤ 2 ^ 64) (first len : Usize) :
    ∃ o, s.mmap.probe page (s.memory page offset) (len.toNat + 1) first len = some o ∧
      Touched page offset s o := by
  cases hp : s.mmap.poisoned with
  | true =>
    unfold SafeMmap.probe
    rw [SafeMmap.checkPoisoned_poisoned hp]
    exact ⟨_, rfl, refuse_quiet rfl⟩
  | false =>
    cases hcheck : s.mmap.raw.exceeds first len with
    | true =>
      unfold SafeMmap.probe
      rw [SafeMmap.checkPoisoned_clean hp, checkBounds_eq, if_pos hcheck]
      exact ⟨_, rfl, refuse_quiet rfl⟩
    | false =>
      have hin := RawMmap.exceeds_eq_false_iff.mp hcheck
      have hrounds := rounds_le hpage len
      rw [probe_eq (s.memory page offset) hp hpage hroom hin (by omega)]
      refine ⟨_, rfl, settle_touched id hp ?_ (congrFun Except.map_id _).symm _ _⟩
      intro addr hmem
      obtain ⟨i, hi, rfl⟩ := List.mem_map.mp hmem
      have hlt : i < rounds page len := by simpa using hi
      have hbyte := (lt_rounds_iff hpage len i).mp hlt
      have hstride := stride_toNat hpage
        (show first.toNat + len.toNat + page.toNat ≤ 2 ^ 64 by omega) hlt.le
      rw [UInt64.add_comm, UInt64.add_sub_cancel, hstride]
      omega

/-- INTERNAL: **what a step can be.**
SOURCE: mmap/mod.rs:503-518, 668-686, 815-839, 1008-1011 -/
theorem step_moved (hpage : 0 < page.toNat) (hroom : s.mmap.raw.len.toNat + page.toNat ≤ 2 ^ 64)
    {act : WatchedAct ρ} (h : Watched.step page offset act s = some s') :
    Moved page offset s s' act := by
  cases act with
  | change file =>
    cases h
    exact .change file rfl rfl
  | read start stop f =>
    cases h
    exact .access _ (read_touched start stop f) rfl
  | readInto first buf =>
    cases h
    exact .access _ (readInto_touched first buf) rfl
  | probe first len =>
    obtain ⟨o, ho, htouched⟩ := probe_touched offset hpage hroom first len
    simp only [Watched.step, ho, Option.map_some, Option.some.injEq] at h
    exact .access o htouched h.symm
  | resetPoison =>
    cases h
    exact .reset rfl

/-- INTERNAL: the limit is at least one, and a count. -/
theorem limit_le (options : SafeMmapOptions) : 1 ≤ limit options ∧ limit options < 2 ^ 32 := by
  have hmax := UInt32.toNat_lt options.maxSigbus
  unfold limit
  omega

/-- INTERNAL: the accounts are empty when the mapping is opened. -/
theorem account_start (options : SafeMmapOptions) (raw : RawMmap) (file : FileState) :
    Account options raw (.start options raw file) := by
  have hlimit := limit_le options
  refine ⟨rfl, rfl, rfl, Nat.zero_le _, ?_⟩
  constructor
  · intro hp
    cases hp
  · intro hzero
    simp only [Watched.start] at hzero
    omega

/-- INTERNAL: **a fault below the limit** is counted, and the one that reaches the limit poisons.
SOURCE: mmap/mod.rs:1039-1055 -/
theorem record_below {self : SafeMmap} {k : ℕ} (hclean : self.poisoned = false)
    (hcount : self.sigbusCount.toNat = k) (hk : k < max 1 self.maxSigbus.toNat) (e : AccessError) :
    (self.recordSigbusFrom e).1.raw = self.raw ∧
      (self.recordSigbusFrom e).1.maxSigbus = self.maxSigbus ∧
      (self.recordSigbusFrom e).1.sigbusCount.toNat = k + 1 ∧
      ((self.recordSigbusFrom e).1.poisoned = true ↔ k + 1 = max 1 self.maxSigbus.toNat) := by
  have hmax := UInt32.toNat_lt self.maxSigbus
  have hnext : (self.sigbusCount + 1).toNat = k + 1 := by
    rw [UInt32.toNat_add, hcount]
    exact Nat.mod_eq_of_lt (show k + 1 < 2 ^ 32 by omega)
  have hreaches : self.sigbusCount + 1 ≥ self.maxSigbus ↔ k + 1 = max 1 self.maxSigbus.toNat := by
    rw [ge_iff_le, UInt32.le_iff_toNat_le, hnext]
    omega
  unfold SafeMmap.recordSigbusFrom
  dsimp only
  by_cases hlast : k + 1 = max 1 self.maxSigbus.toNat
  · rw [if_pos (hreaches.mpr hlast)]
    exact ⟨rfl, rfl, hnext, iff_of_true rfl hlast⟩
  · rw [if_neg (fun hge => hlast (hreaches.mp hge))]
    refine ⟨rfl, rfl, hnext, iff_of_false ?_ hlast⟩
    rw [hclean]
    exact Bool.false_ne_true

/-- INTERNAL: **the account of an access.**
SOURCE: mmap/mod.rs:1039-1055 -/
theorem Account.after (h : Account options raw s) {o : Outcome κ} (ht : Touched page offset s o) :
    Account options raw (s.after o) := by
  obtain ⟨hregion, hmax, hcount, hle, hpoisoned⟩ := h
  cases ht with
  | quiet hmmap hresult =>
    rw [Watched.after, hmmap, hresult]
    exact ⟨hregion, hmax, hcount, hle, hpoisoned⟩
  | fault hclean addr hmmap hresult i hi hgone =>
    have hbelow : s.faults < limit options := by
      refine Nat.lt_of_le_of_ne hle ?_
      intro hlast
      rw [hpoisoned.mpr hlast] at hclean
      cases hclean
    obtain ⟨hraw', hmax', hcount', hpoisoned'⟩ :=
      record_below hclean hcount (by rwa [hmax]) (.sigbus addr)
    rw [hmax] at hpoisoned'
    rw [Watched.after, hmmap, hresult]
    exact ⟨hraw'.trans hregion, hmax'.trans hmax, hcount', hbelow, hpoisoned'⟩

/-- INTERNAL: **every access and every change of the file keeps the accounts.** -/
theorem Account.step (hpage : 0 < page.toNat) (hroom : raw.len.toNat + page.toNat ≤ 2 ^ 64)
    (act : WatchedAct ρ) (s s' : Watched) (h : Account options raw s)
    (hstep : Watched.step page offset act s = some s') : Account options raw s' := by
  have hroom' : s.mmap.raw.len.toNat + page.toNat ≤ 2 ^ 64 := by rwa [h.region]
  cases step_moved hpage hroom' hstep with
  | change file hact heq =>
    subst heq
    exact ⟨h.region, h.max, h.count, h.le, h.poisoned⟩
  | reset heq =>
    subst heq
    have hfresh := account_start options raw s.file
    exact ⟨h.region, h.max, rfl, hfresh.le, hfresh.poisoned⟩
  | access o htouched heq =>
    subst heq
    exact h.after htouched

/-- INTERNAL: **a file that keeps its pages never raises a SIGBUS.** -/
theorem quiet_step (hpage : 0 < page.toNat) (hroom : raw.len.toNat + page.toNat ≤ 2 ^ 64)
    (act : WatchedAct ρ) (s s' : Watched) (hkeeps : KeepsPages page raw offset act s)
    (h : s.mmap.raw = raw ∧ BacksAll page raw offset s.file ∧ s.faults = 0)
    (hstep : Watched.step page offset act s = some s') :
    s'.mmap.raw = raw ∧ BacksAll page raw offset s'.file ∧ s'.faults = 0 := by
  obtain ⟨rfl, hbacks, hzero⟩ := h
  cases step_moved hpage hroom hstep with
  | change file hact heq =>
    subst heq
    exact ⟨rfl, hkeeps file hact, hzero⟩
  | reset heq =>
    subst heq
    exact ⟨rfl, hbacks, rfl⟩
  | access o htouched heq =>
    subst heq
    cases htouched with
    | quiet hmmap hresult =>
      refine ⟨congrArg _ hmmap, hbacks, ?_⟩
      rw [Watched.after, hresult]
      exact hzero
    | fault hclean addr hmmap hresult i hi hgone =>
      rw [hbacks i hi] at hgone
      cases hgone

/-- INTERNAL: the length that `open` maps when none was asked for.
SOURCE: mmap/mod.rs:351-368 -/
theorem mapLen_whole {fileLen : UInt64} {mapLen : Usize} (hlen : options.len = none)
    (h : options.mapLen fileLen = .ok mapLen) :
    options.offset < fileLen ∧ mapLen = fileLen - options.offset := by
  unfold SafeMmapOptions.mapLen at h
  rw [hlen] at h
  dsimp only at h
  split at h
  · cases h
  · split at h
    · cases h
    · rename_i hbelow
      simp only [pure_bind] at h
      split at h
      · cases h
      · cases h
        exact ⟨UInt64.not_le.mp hbelow, rfl⟩

/-- INTERNAL: a mapping that was opened without a length ends where the file does.
SOURCE: mmap/mod.rs:349-368 -/
theorem open_backed {kernel : Kernel} {file : FileState}
    (hmeta : ∀ fd, kernel.metadata fd = .ok (UInt64.ofNat file.bytes.length))
    (hopen : options.openRaw page kernel = .ok raw) (hlen : options.len = none) :
    BacksAll page raw options.offset file := by
  obtain ⟨fd, fileLen, mapLen, -, hfile, hmapLen, hmap⟩ := SafeMmapOptions.openRaw_ok hopen
  have hraw := (MmapOptions.map_ok hmap).2.2.2.1
  have hsmall := file.small
  rw [hmeta, Except.ok.injEq] at hfile
  subst hfile
  have hword : (UInt64.ofNat file.bytes.length).toNat = file.bytes.length :=
    UInt64.toNat_ofNat_of_lt' (show file.bytes.length < 2 ^ 64 by omega)
  obtain ⟨hbelow, rfl⟩ := mapLen_whole hlen hmapLen
  have hrest := toNat_sub_of_ge (UInt64.le_of_lt hbelow)
  intro i hi
  rw [hraw] at hi
  simp only [SafeMmapOptions.mmapOptions, MmapOptions.new] at hi
  apply backs_of_lt
  omega

end Runs

/-! ## The two paths -/

/-- **The two paths on the file as it is now**, for a range of the mapping that is not inverted:
what the mapping returns, what the fallback returns for the same bytes of the file, that the
mapping returns whatever the fallback does, and that a fault of the mapping is an end of file of
the fallback. -/
structure Compared (page : Usize) (offset : UInt64) (s : Watched) (start stop : Usize)
    (f : Closure ρ) (mapping : Except AccessError ρ) (fallback : Exit (Except AccessError ρ)) :
    Prop where
  mapped : mapping = ((f.touches (stop - start)).find? fun i =>
      !s.file.backs page (offset.toNat + start.toNat + i.toNat)).elim
    (.ok (f.value (shown s.file (offset.toNat + start.toNat) (stop.toNat - start.toNat))))
    fun i => .error (.sigbus (s.mmap.raw.ptr + start + i))
  read : fallback = .returned (if start = stop ∨
      offset.toNat + stop.toNat ≤ s.file.bytes.length then
    .ok (f.value (shown s.file (offset.toNat + start.toNat) (stop.toNat - start.toNat)))
    else .error eofError)
  keeps : ∀ value, fallback = .returned (.ok value) → mapping = .ok value
  fails : ∀ e, mapping = .error e → fallback = .returned (.error eofError)

/-- INTERNAL: bytes before the end of the file do not fault. -/
theorem find_inside {page : Usize} {file : FileState} {offset : UInt64} {start stop : Usize}
    (f : Closure ρ) (hle : start ≤ stop)
    (h : start = stop ∨ offset.toNat + stop.toNat ≤ file.bytes.length) :
    ((f.touches (stop - start)).find? fun i =>
      !file.backs page (offset.toNat + start.toNat + i.toNat)) = none := by
  rw [List.find?_eq_none]
  intro i hi
  have hlt := f.inside _ i hi
  have hsub := toNat_sub_of_ge hle
  rw [UInt64.lt_iff_toNat_lt, hsub] at hlt
  rcases h with rfl | hinside
  · omega
  · rw [backs_of_lt (by omega)]
    exact Bool.false_ne_true

/-- INTERNAL: **the two paths at one moment.**
SOURCE: mmap/mod.rs:503-518, fallback/mod.rs:82-102 -/
theorem compared_now {page : Usize} {s : Watched} {opened : FileState} {offset : UInt64}
    {start stop : Usize} (f : Closure ρ) (fd : ℤ) (alloc : Usize → Bool) (short : ℕ → ℕ)
    (hclean : s.mmap.poisoned = false) (hle : start ≤ stop) (hstop : stop ≤ s.mmap.raw.len)
    (hopened : offset.toNat + stop.toNat ≤ opened.bytes.length)
    (hserves : Serves alloc (stop - start)) :
    Compared page offset s start stop f
      (s.mmap.read (s.memory page offset) start stop f).result
      ((PreadReader.mk fd (UInt64.ofNat opened.bytes.length)).read alloc (s.file.pread short)
        (offset + start) (offset + stop) f.value) := by
  have hsmall := opened.small
  have hleNat := UInt64.le_iff_toNat_le.mp hle
  have hstart : (offset + start).toNat = offset.toNat + start.toNat := by
    apply toNat_add_of_fits
    omega
  have hend : (offset + stop).toNat = offset.toNat + stop.toNat := by
    apply toNat_add_of_fits
    omega
  have hlen : (UInt64.ofNat opened.bytes.length).toNat = opened.bytes.length :=
    UInt64.toNat_ofNat_of_lt' (show opened.bytes.length < 2 ^ 64 by omega)
  have hread := read_now page offset f hclean hle hstop
  have hordered : offset + start ≤ offset + stop := by
    rw [UInt64.le_iff_toNat_le]
    omega
  have hbelow : offset + stop ≤ UInt64.ofNat opened.bytes.length := by
    rw [UInt64.le_iff_toNat_le]
    omega
  have hshift : offset + stop - (offset + start) = stop - start := by
    rw [← UInt64.toNat_inj, toNat_sub_of_ge hle, toNat_sub_of_ge hordered, hstart, hend,
      Nat.add_sub_add_left]
  have hreader := reader_now s.file fd alloc short f.value hordered hbelow
    (by rwa [hlen]) (by rwa [hshift])
  have hequal : offset + start = offset + stop ↔ start = stop := by
    rw [← UInt64.toNat_inj, ← UInt64.toNat_inj]
    omega
  simp only [hstart, hend, Nat.add_sub_add_left, hequal] at hreader
  refine ⟨hread, hreader, ?_, ?_⟩
  · intro value hvalue
    rw [hreader] at hvalue
    split at hvalue
    · rename_i hinside
      rw [hread, find_inside f hle hinside]
      cases hvalue
      rfl
    · cases hvalue
  · intro e herror
    rw [hreader, if_neg]
    intro hinside
    rw [hread, find_inside f hle hinside] at herror
    cases herror

/-- A closure that reads the whole slice. -/
def allBytes : Closure (List UInt8) where
  touches := wordsBelow
  value := id
  inside := fun _ => mem_wordsBelow

/-- A file of `n` bytes. -/
def sevens (n : ℕ) (h : n < 2 ^ 63) : FileState where
  bytes := List.replicate n 7
  small := by rwa [List.length_replicate]

/-- A file of ten bytes is emptied and gets four bytes later, with a read before, between and
after. -/
def emptied : List (WatchedAct (List UInt8)) :=
  [.read 2 6 allBytes, .change (sevens 0 (by decide)), .read 2 6 allBytes,
    .change (sevens 4 (by decide))]

end MmapShield.Analysis.Truncation
