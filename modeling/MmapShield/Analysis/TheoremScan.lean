import MmapShield.Analysis.TheoremTruncation
import MmapShield.Model.Victim

/-!
# What a scan page by page reports

The loop of the scenario `nfs_failure` over the pages of a mapping. `badPages` counts the pages
that fault, `pageResult` is what the read of a page returns: until that many pages have faulted as
poison the mapping, each page returns its byte or its SIGBUS, and from then on all are refused.
`scan_at` is the invariant of the loop, by induction on the rounds.
-/

set_option autoImplicit false

namespace MmapShield.Analysis.Scans

open MmapShield.Computation MmapShield.Model MmapShield.Analysis
open MmapShield.Analysis.Truncation (record_below backs_of_lt)

/-- The first byte of a page of the mapping. -/
def pageAddr (page : Usize) (raw : RawMmap) (i : ℕ) : Usize := raw.ptr + UInt64.ofNat i * page

/-- The page faults when it is read. -/
def bad (page : Usize) (raw : RawMmap) (mems : ℕ → Memory) (i : ℕ) : Bool :=
  (mems i).faults 0 (pageAddr page raw i)

/-- The number of pages before page `i` that fault. -/
def badPages (page : Usize) (raw : RawMmap) (mems : ℕ → Memory) (i : ℕ) : ℕ :=
  (List.range i).countP (bad page raw mems)

/-- What the read of a page returns, of a mapping that `limit` faults poison. -/
def pageResult (page : Usize) (raw : RawMmap) (limit : ℕ) (mems : ℕ → Memory) (i : ℕ) :
    Except AccessError UInt8 :=
  if limit ≤ badPages page raw mems i then .error (.poisoned (UInt32.ofNat limit))
  else if bad page raw mems i then .error (.sigbus (pageAddr page raw i))
  else .ok ((mems i).bytes (pageAddr page raw i))

/-- **What the scan of `n` pages reports.** The pages are those of a mapping of region `raw` that
`limit` faults poison. -/
structure ScanExact (page : Usize) (raw : RawMmap) (limit : ℕ) (mems : ℕ → Memory) (n : ℕ)
    (s : Scan) : Prop where
  results : s.results = (List.range n).map (pageResult page raw limit mems)
  successes : s.successes = UInt32.ofNat (s.results.countP Except.isOk)
  faults : s.faults = UInt32.ofNat (n - s.results.countP Except.isOk)
  caught : s.results.countP endsInSigbus = min limit (badPages page raw mems n)
  count : s.mmap.sigbusCount.toNat = min limit (badPages page raw mems n)
  poisoned : s.mmap.poisoned = true ↔ limit ≤ badPages page raw mems n

section Loop

variable {page : Usize} {raw : RawMmap} {mems : ℕ → Memory} {self : SafeMmap} {i n : ℕ}

/-- INTERNAL: one page more is one bad page more, if it faults. -/
theorem badPages_succ (page : Usize) (raw : RawMmap) (mems : ℕ → Memory) (i : ℕ) :
    badPages page raw mems (i + 1) =
      badPages page raw mems i + if bad page raw mems i then 1 else 0 := by
  rw [badPages, List.range_succ, List.countP_append, List.countP_singleton]
  rfl

/-- INTERNAL: the position of a page.
SOURCE: bin/sigbus_victim.rs:262 -/
theorem position_eq (hpage : 0 < page.toNat) {len : Usize} (hi : i < rounds page len) :
    (UInt64.ofNat i * page).toNat = i * page.toNat ∧ i * page.toNat < len.toNat := by
  have hbyte := (lt_rounds_iff hpage len i).mp hi
  have hlen := UInt64.toNat_lt len
  have hle : i ≤ i * page.toNat := Nat.le_mul_of_pos_right i hpage
  have hword : (UInt64.ofNat i).toNat = i := UInt64.toNat_ofNat_of_lt' (show i < 2 ^ 64 by omega)
  refine ⟨?_, hbyte⟩
  rw [UInt64.toNat_mul, hword]
  exact Nat.mod_eq_of_lt (by omega)

/-- INTERNAL: **a read of the first byte** of a range is one touch.
SOURCE: mmap/mod.rs:503-518, mmap/guard.rs:93-128 -/
theorem read_first (mem : Memory) {start stop : Usize} (hclean : self.poisoned = false)
    (hlt : start < stop) (hstop : stop ≤ self.raw.len) :
    ∃ touched, self.read mem start stop SafeMmap.firstByte =
      self.settle (if mem.faults 0 (self.raw.ptr + start) then
        .error (.sigbus (self.raw.ptr + start)) else .ok (mem.bytes (self.raw.ptr + start)))
        touched 1 := by
  have hpassed := Truncation.range_passed (UInt64.le_of_lt hlt) hstop
  have hsub := toNat_sub_of_ge (UInt64.le_of_lt hlt)
  have hltNat := UInt64.lt_iff_toNat_lt.mp hlt
  obtain ⟨left, hleft⟩ : ∃ left, (stop - start).toNat = left + 1 :=
    ⟨stop.toNat - start.toNat - 1, by omega⟩
  have htouches : ((SafeMmap.firstByte.touches (stop - start)).map
      fun i => self.raw.ptr + start + i) = [self.raw.ptr + start] := by
    have hpos : (0 : Usize) < stop - start := by
      rw [UInt64.lt_iff_toNat_lt, hleft]
      exact Nat.succ_pos left
    simp only [SafeMmap.firstByte, if_pos hpos, List.map_singleton, UInt64.add_zero]
  have hhead : (mem.slice (self.raw.ptr + start) (stop - start)).headD 0 =
      mem.bytes (self.raw.ptr + start) := by
    rw [Memory.slice, wordsBelow, hleft, List.range_succ_eq_map, List.map_cons, List.map_cons,
      List.headD_cons]
    exact congrArg _ (UInt64.add_zero _)
  refine ⟨[self.raw.ptr + start], ?_⟩
  unfold SafeMmap.read
  rw [SafeMmap.checkPoisoned_clean hclean]
  simp only
  rw [guardRead_passed mem 0 _ hpassed, htouches, Memory.touchAll]
  cases hfault : mem.faults 0 (self.raw.ptr + start) with
  | true => rfl
  | false =>
    simp only [Bool.false_eq_true, if_false, Memory.touchAll]
    rw [← hhead]
    rfl

/-- INTERNAL: the range that is read for a page is not empty, and inside.
SOURCE: bin/sigbus_victim.rs:262-264 -/
theorem page_range (hpage : 0 < page.toNat) {len offset : Usize} (hlt : offset < len) :
    offset < offset + (if page ≤ len - offset then page else len - offset) ∧
      offset + (if page ≤ len - offset then page else len - offset) ≤ len := by
  have hrest := toNat_sub_of_ge (UInt64.le_of_lt hlt)
  have hlen := UInt64.toNat_lt len
  rw [UInt64.lt_iff_toNat_lt] at hlt
  split
  · rename_i hle
    rw [UInt64.le_iff_toNat_le, hrest] at hle
    rw [UInt64.lt_iff_toNat_lt, UInt64.le_iff_toNat_le, toNat_add_of_fits (by omega)]
    omega
  · rw [UInt64.lt_iff_toNat_lt, UInt64.le_iff_toNat_le, toNat_add_of_fits (by omega)]
    omega

/-- INTERNAL: one more page of which the read returned what it has to.
SOURCE: bin/sigbus_victim.rs:264-275 -/
theorem ScanExact.next {limit : ℕ} {s : Scan} (h : ScanExact page raw limit mems i s)
    {result : Except AccessError UInt8} {mmap : SafeMmap}
    (hresult : result = pageResult page raw limit mems i)
    (hcount : mmap.sigbusCount.toNat = min limit (badPages page raw mems (i + 1)))
    (hpoisoned : mmap.poisoned = true ↔ limit ≤ badPages page raw mems (i + 1)) :
    ScanExact page raw limit mems (i + 1)
      ⟨mmap, if result.isOk then s.successes + 1 else s.successes,
        if result.isOk then s.faults else s.faults + 1, s.results ++ [result]⟩ := by
  have hlength : s.results.countP Except.isOk ≤ i := by
    have hle := List.countP_le_length (p := Except.isOk) (l := s.results)
    rw [h.results, List.length_map, List.length_range] at hle
    rwa [h.results]
  refine ⟨?_, ?_, ?_, ?_, hcount, hpoisoned⟩
  · rw [h.results, hresult, List.range_succ, List.map_append, List.map_singleton]
  · rw [List.countP_append, List.countP_singleton, h.successes]
    dsimp only
    split
    · rw [UInt32.ofNat_add]
      rfl
    · rw [Nat.add_zero]
  · rw [List.countP_append, List.countP_singleton, h.faults]
    dsimp only
    split
    · rw [Nat.add_sub_add_right]
    · have hmore : i + 1 - (s.results.countP Except.isOk + 0) =
          i - s.results.countP Except.isOk + 1 := by omega
      rw [hmore, UInt32.ofNat_add]
      rfl
  · have hcaught := h.caught
    rw [List.countP_append, List.countP_singleton, hcaught, hresult, badPages_succ, pageResult]
    by_cases hlimit : limit ≤ badPages page raw mems i
    · simp only [if_pos hlimit, endsInSigbus, Bool.false_eq_true, if_false]
      omega
    · rw [if_neg hlimit]
      by_cases hbad : bad page raw mems i = true
      · simp only [if_pos hbad, endsInSigbus, if_true]
        omega
      · simp only [if_neg hbad, endsInSigbus, Bool.false_eq_true, if_false]
        omega

/-- The state of the loop before round `i`. -/
structure ScanAt (page : Usize) (raw : RawMmap) (maxSigbus : UInt32) (mems : ℕ → Memory) (i : ℕ)
    (s : Scan) : Prop where
  region : s.mmap.raw = raw
  setting : s.mmap.maxSigbus = maxSigbus
  exactly : ScanExact page raw (max 1 maxSigbus.toNat) mems i s

/-- INTERNAL: a round, with what its read returned. -/
theorem scanPage_eq (page : Usize) (mems : ℕ → Memory) (s : Scan) (i : ℕ) {o : Outcome UInt8}
    (ho : s.mmap.read (mems i) (UInt64.ofNat i * page)
      (UInt64.ofNat i * page + (if page ≤ s.mmap.raw.len - UInt64.ofNat i * page then page
        else s.mmap.raw.len - UInt64.ofNat i * page)) SafeMmap.firstByte = o) :
    scanPage page mems s i =
      ⟨o.mmap, if o.result.isOk then s.successes + 1 else s.successes,
        if o.result.isOk then s.faults else s.faults + 1, s.results ++ [o.result]⟩ := by
  unfold scanPage
  dsimp only
  rw [ho]
  cases o.result with
  | ok value => rfl
  | error e => rfl

/-- INTERNAL: **a round of the loop.**
SOURCE: bin/sigbus_victim.rs:262-275 -/
theorem ScanAt.next {maxSigbus : UInt32} {s : Scan} (hpage : 0 < page.toNat)
    (hi : i < rounds page raw.len) (h : ScanAt page raw maxSigbus mems i s) :
    ScanAt page raw maxSigbus mems (i + 1) (scanPage page mems s i) := by
  obtain ⟨rfl, rfl, hexact⟩ := h
  have hcount := hexact.count
  have hsucc := badPages_succ page s.mmap.raw mems i
  rw [scanPage_eq page mems s i rfl]
  cases hp : s.mmap.poisoned with
  | true =>
    -- the read is refused, with the count that poisoned the mapping
    have hlimit := hexact.poisoned.mp hp
    have hread : ∀ start stop : Usize,
        s.mmap.read (mems i) start stop SafeMmap.firstByte =
          s.mmap.refuse (.poisoned s.mmap.sigbusCount) := by
      intro start stop
      unfold SafeMmap.read
      rw [SafeMmap.checkPoisoned_poisoned hp]
    rw [hread]
    refine ⟨rfl, rfl, hexact.next ?_ ?_ ?_⟩
    · rw [pageResult, if_pos hlimit, ← Nat.min_eq_left hlimit, ← hcount, UInt32.ofNat_toNat]
      rfl
    · show s.mmap.sigbusCount.toNat = _
      omega
    · exact iff_of_true hp (by omega)
  | false =>
    have hlimit : ¬ Max.max 1 s.mmap.maxSigbus.toNat ≤ badPages page s.mmap.raw mems i := by
      rw [← hexact.poisoned, hp]
      exact Bool.false_ne_true
    obtain ⟨hpos, hlt⟩ := position_eq hpage hi
    have hinside : UInt64.ofNat i * page < s.mmap.raw.len := by
      rw [UInt64.lt_iff_toNat_lt]
      omega
    obtain ⟨hbefore, hstop⟩ := page_range hpage hinside
    obtain ⟨touched, hread⟩ := read_first (mems i) hp hbefore hstop
    rw [hread]
    by_cases hbad : (mems i).faults 0 (s.mmap.raw.ptr + UInt64.ofNat i * page) = true
    · rw [if_pos hbad]
      have hbad' : bad page s.mmap.raw mems i = true := hbad
      rw [if_pos hbad'] at hsucc
      obtain ⟨hraw, hmax, hnext, hpoisons⟩ := record_below hp hcount (by omega)
        (.sigbus (s.mmap.raw.ptr + UInt64.ofNat i * page))
      refine ⟨hraw, hmax, hexact.next ?_ ?_ ?_⟩
      · rw [pageResult, if_neg hlimit, if_pos hbad']
        rfl
      · exact hnext.trans (by omega)
      · exact hpoisons.trans (by omega)
    · rw [if_neg hbad]
      have hgood : ¬ bad page s.mmap.raw mems i = true := hbad
      rw [if_neg hgood] at hsucc
      refine ⟨rfl, rfl, hexact.next ?_ ?_ ?_⟩
      · rw [pageResult, if_neg hlimit, if_neg hgood]
        rfl
      · exact hcount.trans (by omega)
      · have hsame : ¬ s.mmap.poisoned = true := by simp [hp]
        exact iff_of_false hsame (by omega)

/-- INTERNAL: **the loop**, by induction on its rounds.
SOURCE: bin/sigbus_victim.rs:258-275 -/
theorem scan_at (mmap : SafeMmap) (hpage : 0 < page.toNat) (hclean : mmap.poisoned = false)
    (hzero : mmap.sigbusCount = 0) (hi : i ≤ rounds page mmap.raw.len) :
    ScanAt page mmap.raw mmap.maxSigbus mems i
      ((List.range i).foldl (scanPage page mems) ⟨mmap, 0, 0, []⟩) := by
  induction i with
  | zero =>
      refine ⟨rfl, rfl, rfl, rfl, rfl, ?_, ?_, ?_⟩
      · simp [badPages]
      · simp [badPages, hzero]
      · refine iff_of_false ?_ ?_
        · simp [hclean]
        · simp [badPages]
  | succ i ih =>
      rw [List.range_succ, List.foldl_append]
      exact (ih (by omega)).next hpage (by omega)

/-! ## The scenario -/

/-- INTERNAL: the first read of the scenario. -/
theorem first_read {raw : RawMmap} (first : Memory) (hlen : 0 < raw.len.toNat) :
    ∃ touched, (SafeMmapOptions.new.finish raw).read first 0 1 SafeMmap.firstByte =
      (SafeMmapOptions.new.finish raw).settle (if first.faults 0 raw.ptr then
        .error (.sigbus raw.ptr) else .ok (first.bytes raw.ptr)) touched 1 := by
  have hstop : (1 : Usize) ≤ raw.len := by
    rw [UInt64.le_iff_toNat_le]
    exact hlen
  have hclean : (SafeMmapOptions.new.finish raw).poisoned = false := rfl
  have haddr : (SafeMmapOptions.new.finish raw).raw.ptr + 0 = raw.ptr := UInt64.add_zero _
  obtain ⟨touched, hread⟩ := read_first first hclean (show (0 : Usize) < 1 by decide) hstop
  rw [haddr] at hread
  exact ⟨touched, hread⟩

end Loop

/-- The file was mapped as `raw`. -/
def OpensAs (page : Usize) (file : Option Kernel) (raw : RawMmap) : Prop :=
  ∃ kernel, file = some kernel ∧ SafeMmapOptions.new.openRaw page kernel = .ok raw

/-- INTERNAL: how many of the first numbers are below a bound. -/
theorem countP_below (n m : ℕ) : (List.range n).countP (fun i => decide (i < m)) = min n m := by
  induction n with
  | zero => simp
  | succ n ih =>
      rw [List.range_succ, List.countP_append, ih, List.countP_singleton]
      by_cases hlt : n < m
      · rw [decide_eq_true hlt, if_pos rfl]
        omega
      · rw [decide_eq_false hlt, if_neg Bool.false_ne_true]
        omega

section Cut

variable {page : Usize} {raw : RawMmap} {mems : ℕ → Memory} {now : FileState} {i : ℕ}

/-- INTERNAL: the pages that fault are those from the end of the file on. -/
theorem bad_cut (hpage : 0 < page.toNat) (hmems : ∀ i, mems i = now.memory page raw.ptr 0)
    (hi : i < rounds page raw.len) :
    bad page raw mems i = !decide (i < now.bytes.length ⌈/⌉ page.toNat) := by
  obtain ⟨hpos, -⟩ := position_eq hpage hi
  have hindex : raw.ptr + UInt64.ofNat i * page - raw.ptr = UInt64.ofNat i * page := by
    rw [UInt64.add_comm, UInt64.add_sub_cancel]
  have hfirst : roundDown page.toNat (i * page.toNat) = i * page.toNat := by
    rw [roundDown, Nat.mul_div_cancel i hpage, Nat.mul_comm]
  have hbelow : i * page.toNat < now.bytes.length ↔ i < now.bytes.length ⌈/⌉ page.toNat := by
    rw [← Nat.not_le, ← Nat.not_le, ceilDiv_le_iff_le_mul hpage, Nat.mul_comm]
  rw [bad, hmems i]
  simp only [FileState.memory, pageAddr, hindex, hpos, FileState.backs]
  rw [show (0 : UInt64).toNat = 0 from rfl, Nat.zero_add, hfirst]
  congr 1
  exact decide_eq_decide.mpr hbelow

/-- INTERNAL: **a scan of a file that was cut** reads the pages that are left of it. -/
theorem ok_cut {limit : ℕ} {s : Scan} (hpage : 0 < page.toNat) (hlimit : 0 < limit)
    (hmems : ∀ i, mems i = now.memory page raw.ptr 0)
    (h : ScanExact page raw limit mems (rounds page raw.len) s) :
    s.results.countP Except.isOk =
      min (rounds page raw.len) (now.bytes.length ⌈/⌉ page.toNat) := by
  rw [h.results, List.countP_map, ← countP_below]
  apply List.countP_congr
  intro i hi
  have hlt := List.mem_range.mp hi
  have hbad := bad_cut hpage hmems hlt
  by_cases hleft : i < now.bytes.length ⌈/⌉ page.toNat
  · -- no page before this one faults
    have hnone : badPages page raw mems i = 0 := by
      rw [badPages, List.countP_eq_zero]
      intro j hj
      have hj' := List.mem_range.mp hj
      rw [bad_cut hpage hmems (hj'.trans hlt), decide_eq_true (hj'.trans hleft)]
      exact Bool.false_ne_true
    rw [decide_eq_true hleft] at hbad
    simp only [Function.comp_apply, pageResult, hnone, hbad, decide_eq_true hleft]
    rw [if_neg (by omega), if_neg (by decide)]
    exact iff_of_true rfl trivial
  · rw [decide_eq_false hleft] at hbad
    simp only [Function.comp_apply, pageResult, hbad, decide_eq_false hleft]
    split
    · exact Iff.rfl
    · exact Iff.rfl

end Cut

/-- RESULT: **what the scenario reports.** For every way in which the file may open, the first
page may fault, `madvise` may answer and the pages may fault in the rounds of the loop: the
scenario fails, with no page evicted and no scan, exactly when the file cannot be mapped or its
first byte cannot be read; else it evicts the whole mapping and reads the first byte of every page
once. Before three pages have faulted each read returns the byte or the SIGBUS of its page, after
that it is refused. The successes and the rest are counted modulo `2^32`; of the rest at most three
are faults, the others are refusals. The mapping is poisoned exactly when three pages or more
fault. Of a file that was cut, the pages that are left are read.
SOURCE: bin/sigbus_victim.rs:221-288, mmap/mod.rs:503-518, 709-711, 1008-1061 -/
theorem scan_exact (page : Usize) (file : Option Kernel) (first : Memory) (kernel : RangeKernel)
    (mems : ℕ → Memory) (hpage : 0 < page.toNat) :
    ((∀ raw, OpensAs page file raw → first.faults 0 raw.ptr = true) ∧
      scenarioNfsFailure page file first kernel mems = ⟨1, [], none⟩) ∨
    ∃ raw s, OpensAs page file raw ∧ first.faults 0 raw.ptr = false ∧
      scenarioNfsFailure page file first kernel mems =
        ⟨0, [.madvise (raw.ptr + alignedOffset page 0) (alignedLen page 0 raw.len) .dontNeed],
          some s⟩ ∧
      ScanExact page raw 3 mems (rounds page raw.len) s ∧
      ∀ now : FileState, (∀ i, mems i = now.memory page raw.ptr 0) →
        s.results.countP Except.isOk =
          min (rounds page raw.len) (now.bytes.length ⌈/⌉ page.toNat) := by
  cases hfile : file with
  | none =>
    left
    refine ⟨?_, rfl⟩
    rintro raw ⟨opened, hnone, -⟩
    cases hnone
  | some opened =>
    cases hopen : SafeMmapOptions.new.openRaw page opened with
    | error e =>
      left
      refine ⟨?_, ?_⟩
      · rintro raw ⟨_, ⟨⟩, hok⟩
        rw [hopen] at hok
        cases hok
      · simp only [scenarioNfsFailure, SafeMmapOptions.open, hopen]
        rfl
    | ok raw =>
      obtain ⟨touched, hread⟩ := first_read first (SafeMmapOptions.openRaw_len_pos hopen)
      have hscenario : scenarioNfsFailure page (some opened) first kernel mems =
          if first.faults 0 raw.ptr then ⟨1, [], none⟩ else
            ⟨0, (raw.adviseRange page kernel .dontNeed 0 raw.len).calls,
              some (scanPages page mems (SafeMmapOptions.new.finish raw))⟩ := by
        simp only [scenarioNfsFailure, SafeMmapOptions.open, hopen, Except.map, hread]
        cases first.faults 0 raw.ptr with
        | true => rfl
        | false => rfl
      have hinside : raw.exceeds 0 raw.len = false := by
        rw [RawMmap.exceeds_eq_false_iff]
        exact (Nat.zero_add _).le
      cases hfault : first.faults 0 raw.ptr with
      | true =>
        left
        refine ⟨?_, by rw [hscenario, if_pos hfault]⟩
        rintro raw' ⟨_, ⟨⟩, hok⟩
        rw [hopen, Except.ok.injEq] at hok
        rw [← hok]
        exact hfault
      | false =>
        right
        have hscan : ScanAt page raw DEFAULT_MAX_SIGBUS mems (rounds page raw.len)
            (scanPages page mems (SafeMmapOptions.new.finish raw)) :=
          scan_at (SafeMmapOptions.new.finish raw) hpage rfl rfl le_rfl
        refine ⟨raw, _, ⟨opened, rfl, hopen⟩, hfault, ?_, hscan.exactly, ?_⟩
        · rw [hscenario, hfault, if_neg Bool.false_ne_true, RawMmap.adviseRange,
            RawMmap.rangeCall_calls hinside]
        · intro now hmems
          exact ok_cut hpage (by decide) hmems hscan.exactly

/-- A file of five pages, of which all but the first fault after they were evicted. -/
def firstPageOnly (_ : ℕ) : Memory where
  bytes := fun _ => 7
  faults := fun _ addr => decide (0x11000 ≤ addr)

/-- A file of five pages, mapped at `0x10000`. -/
def fivePages : Kernel where
  openFile := fun _ => .ok 3
  flock := fun _ _ => .ok ()
  metadata := fun _ => .ok 20480
  mmap := fun _ => .ok 0x10000

/-- Three of the four pages that are gone are caught, the last one is refused, and all four are
reported as faults. -/
theorem scan_exact_firstPageOnly :
    ∃ s, scenarioNfsFailure 4096 (some fivePages) ⟨fun _ => 7, fun _ _ => false⟩
        ⟨fun _ => none, fun _ => 1⟩ firstPageOnly =
          ⟨0, [.madvise 0x10000 20480 .dontNeed], some s⟩ ∧
      s.results = [.ok 7, .error (.sigbus 0x11000), .error (.sigbus 0x12000),
        .error (.sigbus 0x13000), .error (.poisoned 3)] ∧
      s.successes = 1 ∧ s.faults = 4 ∧ s.results.countP endsInSigbus = 3 := by
  obtain ⟨hfails, -⟩ | ⟨raw, s, ⟨_, ⟨⟩, hraw⟩, -, hreport, hexact, -⟩ :=
    scan_exact 4096 (some fivePages) ⟨fun _ => 7, fun _ _ => false⟩
      ⟨fun _ => none, fun _ => 1⟩ firstPageOnly (by decide)
  · have hfault := hfails ⟨0x10000, 20480, false⟩ ⟨fivePages, rfl, rfl⟩
    cases hfault
  · cases hraw
    have hresults := hexact.results
    exact ⟨s, hreport, hresults, by rw [hexact.successes, hresults]; rfl,
      by rw [hexact.faults, hresults]; rfl, by rw [hresults]; rfl⟩

end MmapShield.Analysis.Scans
