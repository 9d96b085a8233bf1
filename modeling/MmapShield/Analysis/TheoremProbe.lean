import MmapShield.Analysis.ProbeLoop

/-!
# Which pages a probe reaches

Pages fault as a pattern says, page `q` of the mapping being its bytes from `q * page` on. A
probe strides over a range from its first byte on, so that it visits the pages of the range
one after the other, but stops before the last of them when the range ends earlier in its
page than it began in its own. `StrideProbe` is what `probe` and `probe_pages` have in common,
and `strideProbe_covers_iff` the one argument about both.
-/

set_option autoImplicit false

namespace MmapShield.Analysis

open MmapShield.Computation MmapShield.Model

/-- The page `q` of the mapping has a byte in the range. -/
def Meets (page offset len : Usize) (q : ℕ) : Prop :=
  ∃ byte, offset.toNat ≤ byte ∧ byte < offset.toNat + len.toNat ∧ byte / page.toNat = q

/-- The page of the mapping that an address is on. -/
def pageOf (raw : RawMmap) (page addr : Usize) : ℕ := (addr.toNat - raw.ptr.toNat) / page.toNat

/-- A page that was touched and does not fault. -/
def TouchedWell (raw : RawMmap) (page : Usize) (bad : ℕ → Bool) (touched : List Usize) (q : ℕ) :
    Prop :=
  bad q = false ∧ ∃ addr ∈ touched, pageOf raw page addr = q

/-- A probe covers its range: `Ok` says that every page of it was touched and is good, and a
range with a bad page ends with a `Sigbus`. -/
def Covers (raw : RawMmap) (page offset len : Usize) (bad : ℕ → Bool)
    (result : Except AccessError Unit) (touched : List Usize) : Prop :=
  (result = .ok () → ∀ q, Meets page offset len q → TouchedWell raw page bad touched q) ∧
    ((∃ q, Meets page offset len q ∧ bad q = true) → ∃ addr, result = .error (.sigbus addr))

/-- The strides from the offset on come to the last page of the range. -/
def Reaches (page offset len : Usize) : Prop :=
  len.toNat = 0 ∨ offset.toNat % page.toNat + (len.toNat - 1) % page.toNat < page.toNat

/-- A page of the range before its last one is bad. -/
def FailsEarly (page offset len : Usize) (bad : ℕ → Bool) : Prop :=
  ∃ q, Meets page offset len q ∧ q < (offset.toNat + len.toNat - 1) / page.toNat ∧ bad q = true

section Pages

variable {page offset len : Usize} {q : ℕ}

/-- INTERNAL: the pages that a range meets are those from its first byte to its last. -/
theorem meets_iff (hpage : 0 < page.toNat) :
    Meets page offset len q ↔ 0 < len.toNat ∧ offset.toNat / page.toNat ≤ q ∧
      q ≤ (offset.toNat + len.toNat - 1) / page.toNat := by
  constructor
  · rintro ⟨byte, hge, hlt, rfl⟩
    exact ⟨by omega, Nat.div_le_div_right hge, Nat.div_le_div_right (by omega)⟩
  · rintro ⟨hlen, hge, hle⟩
    -- the byte is the first of the page, or the first of the range
    refine ⟨max offset.toNat (q * page.toNat), le_max_left _ _, ?_, ?_⟩
    · have hfirst := (Nat.le_div_iff_mul_le hpage).mp hle
      omega
    · rcases Nat.lt_or_ge offset.toNat (q * page.toNat) with hlt | hle'
      · rw [max_eq_right hlt.le, Nat.mul_div_cancel q hpage]
      · rw [max_eq_left hle']
        exact Nat.le_antisymm hge ((Nat.le_div_iff_mul_le hpage).mpr hle')

/-- INTERNAL: a range that is not empty has a stride for each page of its length. -/
theorem rounds_eq (hpage : 0 < page.toNat) (hlen : 0 < len.toNat) :
    rounds page len = (len.toNat - 1) / page.toNat + 1 := by
  rw [rounds, Nat.ceilDiv_eq_add_pred_div, ← Nat.add_div_right _ hpage]
  congr 1
  omega

/-- INTERNAL: the last page of the range, counted from the first. -/
theorem lastPage_eq (hpage : 0 < page.toNat) (hlen : 0 < len.toNat) (offset : Usize) :
    (offset.toNat + len.toNat - 1) / page.toNat =
      offset.toNat / page.toNat + (len.toNat - 1) / page.toNat +
        if page.toNat ≤ offset.toNat % page.toNat + (len.toNat - 1) % page.toNat then 1
        else 0 := by
  rw [Nat.add_sub_assoc hlen, Nat.add_div hpage]

/-- INTERNAL: **the strides reach every page of the range or miss the last one only.** -/
theorem strides_reach_iff (hpage : 0 < page.toNat) :
    Reaches page offset len ↔
      ∀ q, Meets page offset len q → q < offset.toNat / page.toNat + rounds page len := by
  rcases Nat.eq_zero_or_pos len.toNat with hzero | hlen
  · refine ⟨?_, fun _ => Or.inl hzero⟩
    rintro - q hq
    have hpos := ((meets_iff hpage).mp hq).1
    omega
  · have hlast := lastPage_eq hpage hlen offset
    rw [rounds_eq hpage hlen]
    constructor
    · rintro (hzero | hlt) q hq
      · omega
      · have hle := ((meets_iff hpage).mp hq).2.2
        rw [if_neg (by omega)] at hlast
        omega
    · intro h
      right
      by_contra hge
      rw [if_pos (by omega)] at hlast
      have hmeets : Meets page offset len ((offset.toNat + len.toNat - 1) / page.toNat) := by
        rw [meets_iff hpage]
        exact ⟨hlen, Nat.div_le_div_right (by omega), le_rfl⟩
      have hlt := h _ hmeets
      omega

/-- INTERNAL: the strides miss no page but the last. -/
theorem lastPage_le (hpage : 0 < page.toNat) (hlen : 0 < len.toNat) (offset : Usize) :
    (offset.toNat + len.toNat - 1) / page.toNat ≤ offset.toNat / page.toNat + rounds page len := by
  rw [lastPage_eq hpage hlen offset, rounds_eq hpage hlen]
  split <;> omega

end Pages

/-! ## What the two probes have in common -/

/-- A probe in strides: `Ok` says that every stride was touched and is on a good page, and an
error is a `Sigbus` at a stride on a bad one. -/
structure StrideProbe (raw : RawMmap) (page offset len : Usize) (bad : ℕ → Bool)
    (result : Except AccessError Unit) (touched : List Usize) : Prop where
  ok : result = .ok () → touched = strideAddrs raw page offset 0 (rounds page len) ∧
    ∀ i < rounds page len, bad (pageOf raw page (raw.ptr + stride page offset i)) = false
  error : ∀ e, result = .error e → ∃ i < rounds page len,
    e = .sigbus (raw.ptr + stride page offset i) ∧
      bad (pageOf raw page (raw.ptr + stride page offset i)) = true

/-- The kernel places a mapping at the start of a page other than the null page, and inside
the address space. -/
structure Placed (raw : RawMmap) (page : Usize) : Prop where
  aligned : page.toNat ∣ raw.ptr.toNat
  nonnull : raw.ptr ≠ 0
  fits : raw.ptr.toNat + raw.len.toNat ≤ 2 ^ 64

section Probes

variable {raw : RawMmap} {page offset len : Usize} {bad : ℕ → Bool}

/-- INTERNAL: a placed mapping leaves room for a page, so that no position wraps. -/
theorem Placed.room (h : Placed raw page) : raw.len.toNat + page.toNat ≤ 2 ^ 64 := by
  have hle := toNat_le_of_dvd h.aligned h.nonnull
  have hfits := h.fits
  omega

/-- INTERNAL: the `i`-th stride is on the `i`-th page of the range. -/
theorem pageOf_stride (hpage : 0 < page.toNat) (hplaced : Placed raw page)
    (hin : offset.toNat + len.toNat ≤ raw.len.toNat) {i : ℕ} (hi : i < rounds page len) :
    pageOf raw page (raw.ptr + stride page offset i) = offset.toNat / page.toNat + i := by
  rw [pageOf, stride_addr hpage hplaced.room hplaced.fits hin hi, Nat.add_sub_cancel_left,
    Nat.add_mul_div_right _ _ hpage]

/-- INTERNAL: **when a probe in strides covers its range.** It does unless the strides miss
the last page and no other page of the range is bad.
SOURCE: mmap/mod.rs:676-683, mmap/prefetch.rs:44-63 -/
theorem strideProbe_covers_iff (hpage : 0 < page.toNat) (hplaced : Placed raw page)
    (hin : offset.toNat + len.toNat ≤ raw.len.toNat) {result : Except AccessError Unit}
    {touched : List Usize} (h : StrideProbe raw page offset len bad result touched) :
    Covers raw page offset len bad result touched ↔
      Reaches page offset len ∨ FailsEarly page offset len bad := by
  have hgood {q : ℕ} (hok : result = .ok ()) (hq : Meets page offset len q)
      (hlt : q < offset.toNat / page.toNat + rounds page len) :
      TouchedWell raw page bad touched q := by
    obtain ⟨htouched, hquiet⟩ := h.ok hok
    have hge := ((meets_iff hpage).mp hq).2.1
    obtain ⟨i, rfl⟩ := Nat.exists_eq_add_of_le hge
    have hi : i < rounds page len := by omega
    have hstride := pageOf_stride hpage hplaced hin hi
    refine ⟨?_, raw.ptr + stride page offset i, ?_, hstride⟩
    · rw [← hstride]
      exact hquiet i hi
    · rw [htouched]
      apply List.mem_map_of_mem
      simpa using hi
  constructor
  · intro hcovers
    by_cases hreach : Reaches page offset len
    · exact Or.inl hreach
    · right
      rw [strides_reach_iff hpage] at hreach
      simp only [not_forall, not_lt, exists_prop] at hreach
      obtain ⟨q, hq, hbeyond⟩ := hreach
      obtain ⟨hlen, -, hlast⟩ := (meets_iff hpage).mp hq
      cases hr : result with
      | ok value =>
        -- the page beyond the strides would have been touched
        obtain ⟨-, addr, hmem, hpageOf⟩ := hcovers.1 hr q hq
        rw [(h.ok hr).1] at hmem
        obtain ⟨i, hi, rfl⟩ := List.mem_map.mp hmem
        have hlt : i < rounds page len := by simpa using hi
        rw [pageOf_stride hpage hplaced hin hlt] at hpageOf
        omega
      | error e =>
        obtain ⟨i, hi, -, hbad⟩ := h.error e hr
        rw [pageOf_stride hpage hplaced hin hi] at hbad
        refine ⟨_, (meets_iff hpage).mpr ⟨hlen, Nat.le_add_right _ _, by omega⟩, by omega, hbad⟩
  · intro hcond
    have hsigbus (hbad : ∃ q, Meets page offset len q ∧
        q < offset.toNat / page.toNat + rounds page len ∧ bad q = true) :
        ∃ addr, result = .error (.sigbus addr) := by
      obtain ⟨q, hq, hlt, hb⟩ := hbad
      cases hr : result with
      | ok value =>
        have hwell := (hgood hr hq hlt).1
        rw [hb] at hwell
        cases hwell
      | error e =>
        obtain ⟨i, -, he, -⟩ := h.error e hr
        exact ⟨_, congrArg _ he⟩
    rcases hcond with hreach | ⟨q, hq, hearly, hb⟩
    · rw [strides_reach_iff hpage] at hreach
      refine ⟨fun hok q hq => hgood hok hq (hreach q hq), ?_⟩
      rintro ⟨q, hq, hb⟩
      exact hsigbus ⟨q, hq, hreach q hq, hb⟩
    · have hlast := lastPage_le hpage ((meets_iff hpage).mp hq).1 offset
      obtain ⟨addr, hr⟩ := hsigbus ⟨q, hq, by omega, hb⟩
      refine ⟨?_, fun _ => ⟨addr, hr⟩⟩
      intro hok
      rw [hr] at hok
      cases hok

end Probes

/-! ## `probe` -/

/-- A memory whose pages fault as the pattern says, at every touch. -/
def pagedMemory (raw : RawMmap) (page : Usize) (bytes : Usize → UInt8) (bad : ℕ → Bool) :
    Memory where
  bytes := bytes
  faults := fun _ addr => bad (pageOf raw page addr)

/-- INTERNAL: **`probe` is a probe in strides**, and it ends.
SOURCE: mmap/mod.rs:668-686 -/
theorem probe_strides {self : SafeMmap} {page offset len : Usize} (hpage : 0 < page.toNat)
    (hplaced : Placed self.raw page) (hclean : self.poisoned = false)
    (hin : offset.toNat + len.toNat ≤ self.raw.len.toNat) (bytes : Usize → UInt8)
    (bad : ℕ → Bool) {fuel : ℕ} (hfuel : rounds page len < fuel) :
    ∃ o, self.probe page (pagedMemory self.raw page bytes bad) fuel offset len = some o ∧
      StrideProbe self.raw page offset len bad o.result o.touched := by
  rw [probe_eq (pagedMemory self.raw page bytes bad) hclean hpage hplaced.room hin hfuel]
  cases ht : ((pagedMemory self.raw page bytes bad).touchAll 0
      (strideAddrs self.raw page offset 0 (rounds page len))).2 with
  | ok value =>
    obtain ⟨hall, hquiet⟩ := touchAll_ok ht
    refine ⟨_, rfl, ?_, ?_⟩
    · intro _
      refine ⟨hall, ?_⟩
      intro i hi
      apply hquiet i
      rw [strideAddrs, List.getElem?_map, List.getElem?_range' hi]
      simp
    · intro e he
      cases he
  | error addr =>
    obtain ⟨hmem, m, hfault⟩ := touchAll_error ht
    obtain ⟨i, hi, rfl⟩ := List.mem_map.mp hmem
    refine ⟨_, rfl, ?_, ?_⟩
    · intro hok
      cases hok
    · intro e he
      cases he
      exact ⟨i, by simpa using hi, rfl, hfault⟩

/-! ## `probe_pages` -/

/-- The touches of the worker fault as the pattern says. -/
def Patterned (raw : RawMmap) (page : Usize) (bad : ℕ → Bool) (act : PrefetchAct) (s : Prefetch) :
    Prop :=
  ∀ fault pos, act = .touch fault → s.worker = .touch pos →
    fault = bad (pageOf raw page (raw.ptr + pos))

/-- INTERNAL: **a run of `probe_pages` that was not cancelled is a probe in strides.**
SOURCE: mmap/prefetch.rs:35-66 -/
theorem probePages_strides {self : SafeMmap} {page offset len : Usize} (hpage : 0 < page.toNat)
    (hplaced : Placed self.raw page) (hin : offset.toNat + len.toNat ≤ self.raw.len.toNat)
    (bad : ℕ → Bool) {timeout : ℕ} {acts : List PrefetchAct} {s : Prefetch}
    {result : Except AccessError Unit}
    (h : run (Prefetch.step page (self.prefetchCall offset len timeout)) acts .init = some s)
    (hpattern : Along (Prefetch.step page (self.prefetchCall offset len timeout))
      (Patterned self.raw page bad) acts .init)
    (hworker : s.worker = .lock result) (hexit : s.cancelledExit = false) :
    StrideProbe self.raw page offset len bad result (s.touches.map Touch.addr) := by
  have hroom : offset.toNat + len.toNat + page.toNat ≤ 2 ^ 64 := by
    have := hplaced.room
    omega
  have hprotocol := reach_invariant (Protocol page (self.prefetchCall offset len timeout))
    Protocol.step acts (protocol_init page _) h
  have hfaults : ∀ touch ∈ s.touches, touch.fault = bad (pageOf self.raw page touch.addr) := by
    refine run_invariant
      (fun s => ∀ touch ∈ s.touches, touch.fault = bad (pageOf self.raw page touch.addr))
      ?_ acts (by simp [Prefetch.init]) hpattern h
    intro act u u' hact hold hstep touch hmem
    rcases step_touches hstep with hsame | ⟨fault, pos, hfault, hw, hnew⟩
    · rw [hsame] at hmem
      exact hold touch hmem
    · rw [hnew] at hmem
      rcases List.mem_append.mp hmem with hbefore | hlast
      · exact hold touch hbefore
      · rw [List.mem_singleton.mp hlast]
        exact hact fault pos hfault hw
  have hgenuine := hprotocol.worker
  rw [hworker, WorkerOk, hexit] at hgenuine
  refine ⟨?_, ?_⟩
  · rintro rfl
    have hwhole : Whole page (self.prefetchCall offset len timeout) s.touches := by
      rcases hgenuine with hcancelled | hwhole
      · cases hcancelled
      · exact hwhole
    have htouches := hwhole.eq hpage hroom
    refine ⟨?_, ?_⟩
    · rw [htouches, strideAddrs, List.map_map, List.range_eq_range']
      rfl
    · intro i hi
      have hmem : goodTouch page (self.prefetchCall offset len timeout) i ∈ s.touches := by
        rw [htouches]
        exact List.mem_map_of_mem (List.mem_range.mpr hi)
      exact (hfaults _ hmem).symm
  · rintro e rfl
    cases e with
    | sigbus addr =>
      obtain ⟨i, hi, haddr⟩ := touches_at_strides hpage hroom h _ hgenuine
      have hfault := hfaults _ hgenuine
      dsimp only at haddr hfault
      rw [haddr] at hfault
      exact ⟨i, hi, congrArg _ haddr, hfault.symm⟩
    | _ => exact hgenuine.elim

/-- RESULT: **when a probe covers every page.** For every pattern of faulting pages: `probe`
returns, and it and an uncancelled run of `probe_pages` keep the promise that `Ok` means every
page of the range was touched without a fault, and that a faulting page ends in a `Sigbus`,
exactly when the strides from the offset on come to the last page of the range or a page
before it faults.
SOURCE: mmap/mod.rs:668-686, mmap/prefetch.rs:35-66 -/
theorem probe_covers_iff (self : SafeMmap) (page offset len : Usize) (k : ℕ)
    (bytes : Usize → UInt8) (bad : ℕ → Bool) (hpage : page.toNat = 2 ^ k)
    (hplaced : Placed self.raw page) (hclean : self.poisoned = false)
    (hin : offset.toNat + len.toNat ≤ self.raw.len.toNat) :
    (∀ fuel, len.toNat < fuel →
      ∃ o, self.probe page (pagedMemory self.raw page bytes bad) fuel offset len = some o ∧
        (Covers self.raw page offset len bad o.result o.touched ↔
          Reaches page offset len ∨ FailsEarly page offset len bad)) ∧
    ∀ timeout acts s result,
      run (Prefetch.step page (self.prefetchCall offset len timeout)) acts .init = some s →
      Along (Prefetch.step page (self.prefetchCall offset len timeout))
        (Patterned self.raw page bad) acts .init →
      s.worker = .lock result → s.cancelledExit = false →
        (Covers self.raw page offset len bad result (s.touches.map Touch.addr) ↔
          Reaches page offset len ∨ FailsEarly page offset len bad) := by
  have hpos : 0 < page.toNat := by
    rw [hpage]
    exact Nat.two_pow_pos k
  refine ⟨?_, ?_⟩
  · intro fuel hfuel
    obtain ⟨o, ho, hstrides⟩ := probe_strides hpos hplaced hclean hin bytes bad
      ((rounds_le hpos len).trans_lt hfuel)
    exact ⟨o, ho, strideProbe_covers_iff hpos hplaced hin hstrides⟩
  · intro timeout acts s result h hpattern hworker hexit
    exact strideProbe_covers_iff hpos hplaced hin
      (probePages_strides hpos hplaced hin bad h hpattern hworker hexit)

/-- A mapping of two pages. -/
def twoPages : SafeMmap where
  raw := ⟨0x10000, 8192, true⟩
  sigbusCount := 0
  poisoned := false
  maxSigbus := 3
  onEvent := false

/-- INTERNAL: `twoPages` lies on a page of its own and leaves room behind it. -/
theorem twoPages_placed : Placed twoPages.raw 4096 := ⟨by decide, by decide, by decide⟩

/-- The worker touches the first page of the two and ends. -/
def touchOnce : List PrefetchAct := [.caller, .worker, .worker, .load false, .touch false, .worker]

/-- Where the run `touchOnce` ends, after the touch at `addr`. -/
def touchOnceEnd (addr : Usize) : Prefetch :=
  { Prefetch.init with
    caller := .lock, worker := .lock (.ok ()), touches := [⟨addr, false, true⟩] }

/-- The last byte of the first page and the first byte of the second, which faults: `probe`
touches the first page and returns `Ok`, and so does the worker.
SOURCE: mmap/mod.rs:668-686, mmap/prefetch.rs:35-66 -/
theorem probe_misses_lastPage :
    (∃ o, twoPages.probe 4096 (pagedMemory twoPages.raw 4096 (fun _ => 0) fun q => q == 1) 3
        4095 2 = some o ∧ o.result = .ok () ∧
      ¬ Covers twoPages.raw 4096 4095 2 (fun q => q == 1) o.result o.touched) ∧
    run (Prefetch.step 4096 (twoPages.prefetchCall 4095 2 1000)) touchOnce .init =
      some (touchOnceEnd 0x10fff) ∧
    ¬ Covers twoPages.raw 4096 4095 2 (fun q => q == 1) (.ok ())
      ((touchOnceEnd 0x10fff).touches.map Touch.addr) := by
  have hmeets : Meets 4096 4095 2 1 := ⟨4096, by decide, by decide, by decide⟩
  have hnot (touched : List Usize) :
      ¬ Covers twoPages.raw 4096 4095 2 (fun q => q == 1) (.ok ()) touched := by
    intro hcovers
    obtain ⟨addr, haddr⟩ := hcovers.2 ⟨1, hmeets, rfl⟩
    cases haddr
  exact ⟨⟨⟨.ok (), [0x10fff], 0, [], twoPages⟩, rfl, rfl, hnot _⟩, rfl, hnot _⟩

/-- A range that begins with its first page and ends in its second is covered, although a
page of it is bad.
SOURCE: mmap/mod.rs:668-686 -/
theorem probe_covers_iff_twoPages :
    (∃ o, twoPages.probe 4096 (pagedMemory twoPages.raw 4096 (fun _ => 0) fun q => q == 1) 5000
        0 4097 = some o ∧
      Covers twoPages.raw 4096 0 4097 (fun q => q == 1) o.result o.touched) ∧
    run (Prefetch.step 4096 (twoPages.prefetchCall 0 4096 1000)) touchOnce .init =
      some (touchOnceEnd 0x10000) ∧
    Covers twoPages.raw 4096 0 4096 (fun _ => false) (.ok ())
      ((touchOnceEnd 0x10000).touches.map Touch.addr) := by
  have hreach (len : Usize) : Reaches 4096 0 len := by
    right
    have hmod := Nat.mod_lt (len.toNat - 1) (y := (4096 : Usize).toNat) (by decide)
    simpa using hmod
  have hrun : run (Prefetch.step 4096 (twoPages.prefetchCall 0 4096 1000)) touchOnce .init =
      some (touchOnceEnd 0x10000) := rfl
  have hpattern : Along (Prefetch.step 4096 (twoPages.prefetchCall 0 4096 1000))
      (Patterned twoPages.raw 4096 fun _ => false) touchOnce .init := by
    apply along_of_forall
    intro act hact s fault pos hfault _
    rw [hfault] at hact
    simpa [touchOnce] using hact
  obtain ⟨hprobe, -⟩ := probe_covers_iff twoPages 4096 0 4097 12 (fun _ => 0) (fun q => q == 1)
    rfl twoPages_placed rfl (by decide)
  obtain ⟨o, ho, hiff⟩ := hprobe 5000 (by decide)
  obtain ⟨-, hpages⟩ := probe_covers_iff twoPages 4096 0 4096 12 (fun _ => 0) (fun _ => false)
    rfl twoPages_placed rfl (by decide)
  exact ⟨⟨o, ho, hiff.mpr (Or.inl (hreach 4097))⟩, hrun,
    (hpages 1000 touchOnce _ _ hrun hpattern rfl rfl).mpr (Or.inl (hreach 4096))⟩

end MmapShield.Analysis
