import MmapShield.Analysis.ProbeLoop

/-!
# The two page probers

`SafeMmap::probe` reads one byte at each stride through a guard, which checks the bounds again;
`probe_pages` touches the address and looks at a flag before. `loops_agree` takes the two loops
one round at a time: as long as the positions are strides inside of the range, the check of the
guard passes and both make the same touch. What they touch is then said once, by
`CutAtFault`: the strides in their order, up to and with the first that faults.

`worker_probes` ties `probePages` to the worker of the two threads: a worker that the flag has
not stopped comes to its result, and to the touches, of the one call.
-/

set_option autoImplicit false

namespace MmapShield.Analysis.Probers

open MmapShield.Computation MmapShield.Model

/-- The flag is never set. -/
def never (_ : ℕ) : Bool := false

/-- The addresses are touched in their order up to and with the first that faults, the `n`-th
touch being at the `n`-th address; the result is `Ok`, or a `Sigbus` at that address. -/
def CutAtFault (mem : Memory) (addrs touched : List Usize) (result : Except AccessError Unit) :
    Prop :=
  (result = .ok () ∧ touched = addrs ∧
    ∀ i addr, addrs[i]? = some addr → mem.faults i addr = false) ∨
  ∃ n addr, addrs[n]? = some addr ∧ mem.faults n addr = true ∧
    (∀ i < n, ∀ other, addrs[i]? = some other → mem.faults i other = false) ∧
    touched = addrs.take (n + 1) ∧ result = .error (.sigbus addr)

/-- INTERNAL: touches that do not end well end at the first that faults. -/
theorem touchAll_first {mem : Memory} {addrs : List Usize} {k : ℕ} {addr : Usize}
    (h : (mem.touchAll k addrs).2 = .error addr) :
    ∃ n, addrs[n]? = some addr ∧ mem.faults (k + n) addr = true ∧
      (∀ i < n, ∀ other, addrs[i]? = some other → mem.faults (k + i) other = false) ∧
      (mem.touchAll k addrs).1 = addrs.take (n + 1) := by
  induction addrs generalizing k with
  | nil => cases h
  | cons first rest ih =>
      simp only [Memory.touchAll] at h ⊢
      by_cases hfirst : mem.faults k first = true
      · rw [if_pos hfirst] at h ⊢
        cases h
        exact ⟨0, rfl, hfirst, fun i hi => absurd hi (Nat.not_lt_zero i), rfl⟩
      · rw [if_neg hfirst] at h ⊢
        obtain ⟨n, haddr, hfault, hbefore, htouched⟩ := ih h
        refine ⟨n + 1, haddr, ?_, ?_, ?_⟩
        · rw [Nat.add_comm n 1, ← Nat.add_assoc]
          exact hfault
        · intro i hi other hother
          cases i with
          | zero =>
              cases hother
              exact Bool.not_eq_true _ ▸ hfirst
          | succ i =>
              rw [Nat.add_comm i 1, ← Nat.add_assoc]
              exact hbefore i (by omega) other hother
        · rw [htouched]
          rfl

/-- INTERNAL: what an access that touches the addresses one after the other does. -/
theorem cutAtFault_touchAll (mem : Memory) (addrs : List Usize) :
    CutAtFault mem addrs (mem.touchAll 0 addrs).1 ((mem.touchAll 0 addrs).2.mapError .sigbus) := by
  cases h : (mem.touchAll 0 addrs).2 with
  | ok value =>
      obtain ⟨hall, hquiet⟩ := touchAll_ok h
      refine Or.inl ⟨rfl, hall, ?_⟩
      intro i addr hi
      rw [← Nat.zero_add i]
      exact hquiet i addr hi
  | error addr =>
      obtain ⟨n, haddr, hfault, hbefore, htouched⟩ := touchAll_first h
      simp only [Nat.zero_add] at hfault hbefore
      exact Or.inr ⟨n, addr, haddr, hfault, hbefore, htouched, rfl⟩

section Loops

variable {self : SafeMmap} {page offset len : Usize}

/-- INTERNAL: **the two loops agree round by round**, from every stride on. The check of the
guard passes at a stride that the condition of the loop has let through.
SOURCE: mmap/mod.rs:676-683, mmap/prefetch.rs:44-63, mmap/guard.rs:99-108 -/
theorem loops_agree (mem : Memory) (hpage : 0 < page.toNat)
    (hroom : self.raw.len.toNat + page.toNat ≤ 2 ^ 64)
    (hin : offset.toNat + len.toNat ≤ self.raw.len.toNat) (fuel : ℕ) {i n : ℕ}
    (hi : i ≤ rounds page len) :
    self.probeLoop page mem (offset + len) fuel n (stride page offset i) =
      probePagesLoop self.raw.ptr page mem never (offset + len) fuel n (stride page offset i) := by
  have hfits : offset.toNat + len.toNat + page.toNat ≤ 2 ^ 64 := by omega
  induction fuel generalizing i n with
  | zero => rfl
  | succ fuel ih =>
      unfold SafeMmap.probeLoop probePagesLoop
      by_cases hstop : stride page offset i < offset + len
      · have hlt : i < rounds page len := (stride_lt_stop hpage hfits hi).mp hstop
        have hinside := RawMmap.exceeds_one hstop (add_le_of_fits hin)
        rw [if_pos hstop, if_pos hstop, read_firstByte mem n hinside, never,
          if_neg Bool.false_ne_true, Memory.touchAll]
        by_cases hfault : mem.faults n (self.raw.ptr + stride page offset i) = true
        · simp only [hfault, if_true]
        · simp only [hfault, Bool.false_eq_true, if_false]
          rw [stride_succ, ih hlt]
          rfl
      · rw [if_neg hstop, if_neg hstop]

/-- INTERNAL: **`probe_pages` that is never cancelled touches one byte at each stride**, up to
the first that faults.
SOURCE: mmap/prefetch.rs:35-66 -/
theorem probePages_eq (mem : Memory) (hpage : 0 < page.toNat)
    (hroom : self.raw.len.toNat + page.toNat ≤ 2 ^ 64)
    (hin : offset.toNat + len.toNat ≤ self.raw.len.toNat) {fuel : ℕ}
    (hfuel : rounds page len < fuel) :
    probePages self.raw.ptr page mem never fuel offset len =
      some (((mem.touchAll 0 (strideAddrs self.raw page offset 0 (rounds page len))).2.mapError
          .sigbus),
        (mem.touchAll 0 (strideAddrs self.raw page offset 0 (rounds page len))).1) := by
  have hagree := loops_agree mem hpage hroom hin fuel (i := 0) (n := 0) (Nat.zero_le _)
  have hloop := probeLoop_eq self mem hpage hroom hin (rounds page len) (i := 0) (n := 0)
    (Nat.zero_add _) hfuel
  rw [stride_zero] at hagree hloop
  unfold probePages
  rw [← hagree, hloop]

/-! ## The addresses -/

/-- The addresses are strictly increasing, inside of the range, and no two on one page. -/
structure Orderly (raw : RawMmap) (page offset len : Usize) (touched : List Usize) : Prop where
  increasing : touched.Pairwise fun a b => a.toNat < b.toNat
  inside : ∀ addr ∈ touched, raw.ptr.toNat + offset.toNat ≤ addr.toNat ∧
    addr.toNat < raw.ptr.toNat + offset.toNat + len.toNat
  apart : touched.Pairwise fun a b => a.toNat / page.toNat ≠ b.toNat / page.toNat

/-- INTERNAL: the addresses of the strides are a page apart. -/
theorem strides_apart (hpage : 0 < page.toNat)
    (hroom : self.raw.len.toNat + page.toNat ≤ 2 ^ 64)
    (hspace : self.raw.ptr.toNat + self.raw.len.toNat ≤ 2 ^ 64)
    (hin : offset.toNat + len.toNat ≤ self.raw.len.toNat) :
    (strideAddrs self.raw page offset 0 (rounds page len)).Pairwise
      fun a b => a.toNat + page.toNat ≤ b.toNat := by
  have haddr {i : ℕ} (hi : i ∈ List.range' 0 (rounds page len)) :
      (self.raw.ptr + stride page offset i).toNat =
        self.raw.ptr.toNat + (offset.toNat + i * page.toNat) := by
    apply stride_addr hpage hroom hspace hin
    simpa using hi
  rw [strideAddrs, List.pairwise_map]
  refine List.Pairwise.imp_of_mem ?_ List.pairwise_lt_range'
  intro i j hi hj hlt
  rw [haddr hi, haddr hj]
  have hnext : (i + 1) * page.toNat ≤ j * page.toNat := Nat.mul_le_mul_right _ hlt
  rw [Nat.succ_mul] at hnext
  omega

/-- INTERNAL: the strides, from the first on, increase inside of the range, one to a page. -/
theorem orderly_strides (hpage : 0 < page.toNat)
    (hroom : self.raw.len.toNat + page.toNat ≤ 2 ^ 64)
    (hspace : self.raw.ptr.toNat + self.raw.len.toNat ≤ 2 ^ 64)
    (hin : offset.toNat + len.toNat ≤ self.raw.len.toNat) {touched : List Usize}
    (htouched : touched <+: strideAddrs self.raw page offset 0 (rounds page len)) :
    Orderly self.raw page offset len touched := by
  have hgap := (strides_apart hpage hroom hspace hin).sublist htouched.sublist
  refine ⟨?_, ?_, ?_⟩
  · refine hgap.imp ?_
    intro a b hab
    omega
  · intro addr hmem
    obtain ⟨i, hi, rfl⟩ := List.mem_map.mp (htouched.subset hmem)
    have hlt : i < rounds page len := by simpa using hi
    have hbyte := (lt_rounds_iff hpage len i).mp hlt
    rw [stride_addr hpage hroom hspace hin hlt]
    omega
  · refine hgap.imp ?_
    intro a b hab heq
    have hpages := Nat.div_le_div_right (c := page.toNat) hab
    rw [Nat.add_div_right _ hpage] at hpages
    omega

/-- INTERNAL: a cut is a part of the addresses from the first on. -/
theorem CutAtFault.begins {mem : Memory} {addrs touched : List Usize}
    {result : Except AccessError Unit} (h : CutAtFault mem addrs touched result) :
    touched <+: addrs := by
  rcases h with ⟨-, htouched, -⟩ | ⟨n, addr, -, -, -, htouched, -⟩
  · rw [htouched]
  · rw [htouched]
    exact List.take_prefix _ _

end Loops

/-! ## The worker -/

section Worker

variable {page : Usize} {call : PrefetchCall} {mem : Memory} {s s' : Prefetch}
  {whole : Except AccessError Unit × List Usize}

/-- The touches of the worker fault as the memory says. -/
def FaultsAs (mem : Memory) (call : PrefetchCall) (act : PrefetchAct) (s : Prefetch) : Prop :=
  ∀ fault pos, act = .touch fault → s.worker = .touch pos →
    fault = mem.faults s.touches.length (call.basePtr + pos)

/-- The loop is at `pos`, and what is left of it makes the touches so far into the whole call. -/
def Left (page : Usize) (call : PrefetchCall) (mem : Memory)
    (whole : Except AccessError Unit × List Usize) (touches : List Touch) (pos : Usize) : Prop :=
  ∃ fuel rest, probePagesLoop call.basePtr page mem never (call.offset + call.len) fuel
      touches.length pos = some rest ∧
    whole = (rest.1, touches.map Touch.addr ++ rest.2)

/-- Where the worker is in the call that ends as `whole`. -/
def Halfway (page : Usize) (call : PrefetchCall) (mem : Memory)
    (whole : Except AccessError Unit × List Usize) (s : Prefetch) : WorkerPc → Prop
  | .unborn | .installHandler => s.touches = []
  | .head pos => Left page call mem whole s.touches pos
  | .load pos | .touch pos =>
    Left page call mem whole s.touches pos ∧ pos < call.offset + call.len
  | .lock result | .store result =>
    s.cancelledExit = false → whole = (result, s.touches.map Touch.addr)
  | .notifyOne | .unlock | .done => True

/-- INTERNAL: the condition of the loop ends it.
SOURCE: mmap/prefetch.rs:44, 65 -/
theorem Left.stop {touches : List Touch} {pos : Usize} (h : Left page call mem whole touches pos)
    (hstop : ¬ pos < call.offset + call.len) : whole = (.ok (), touches.map Touch.addr) := by
  obtain ⟨fuel, rest, hrest, rfl⟩ := h
  cases fuel with
  | zero => cases hrest
  | succ fuel =>
      unfold probePagesLoop at hrest
      rw [if_neg hstop] at hrest
      cases hrest
      rw [List.append_nil]

/-- INTERNAL: a touch ends the loop or is one more round of it.
SOURCE: mmap/prefetch.rs:50-63 -/
theorem Left.touch {touches : List Touch} {pos : Usize} (h : Left page call mem whole touches pos)
    (hstop : pos < call.offset + call.len) (mapped : Bool) :
    (mem.faults touches.length (call.basePtr + pos) = true →
      whole = (.error (.sigbus (call.basePtr + pos)),
        (touches ++ [Touch.mk (call.basePtr + pos) true mapped]).map Touch.addr)) ∧
    (mem.faults touches.length (call.basePtr + pos) = false →
      Left page call mem whole (touches ++ [Touch.mk (call.basePtr + pos) false mapped])
        (pos + page)) := by
  obtain ⟨fuel, rest, hrest, rfl⟩ := h
  cases fuel with
  | zero => cases hrest
  | succ fuel =>
      unfold probePagesLoop at hrest
      rw [if_pos hstop, never, if_neg Bool.false_ne_true, Memory.touchAll] at hrest
      refine ⟨?_, ?_⟩
      · intro hfault
        rw [if_pos hfault] at hrest
        cases hrest
        rw [List.map_append]
        rfl
      · intro hfault
        rw [hfault, if_neg Bool.false_ne_true] at hrest
        simp only [Memory.touchAll, Option.map_eq_some_iff] at hrest
        obtain ⟨more, hmore, rfl⟩ := hrest
        refine ⟨fuel, more, ?_, ?_⟩
        · rw [List.length_append]
          exact hmore
        · simp

/-- INTERNAL: a step that leaves the worker where it is. -/
theorem Halfway.same (h : Halfway page call mem whole s s.worker) (hworker : s'.worker = s.worker)
    (htouches : s'.touches = s.touches) (hexit : s'.cancelledExit = s.cancelledExit) :
    Halfway page call mem whole s' s'.worker := by
  rw [hworker]
  unfold Halfway at h ⊢
  rw [htouches, hexit]
  exact h

/-- INTERNAL: **every step keeps the worker in its call.**
SOURCE: mmap/prefetch.rs:35-66, 105-149 -/
theorem halfway_step (hstart : Left page call mem whole [] call.offset) (act : PrefetchAct)
    (s s' : Prefetch) (hact : FaultsAs mem call act s)
    (h : Protocol page call s ∧ Halfway page call mem whole s s.worker)
    (hstep : Prefetch.step page call act s = some s') :
    Protocol page call s' ∧ Halfway page call mem whole s' s'.worker := by
  obtain ⟨hprotocol, hhalfway⟩ := h
  refine ⟨hprotocol.step act s s' hstep, ?_⟩
  cases Prefetch.step_move hstep with
  | spawn hc =>
      rw [(hprotocol.caller_at hc).1] at hhalfway
      exact hhalfway
  | install hw =>
      rw [hw] at hhalfway
      show Left page call mem whole s.touches call.offset
      rw [show s.touches = [] from hhalfway]
      exact hstart
  | enter pos hw hlt =>
      rw [hw] at hhalfway
      exact ⟨hhalfway, hlt⟩
  | leave pos hw hstop =>
      rw [hw] at hhalfway
      intro _
      exact Left.stop hhalfway hstop
  | acquire _ hw _ | look _ hw =>
      rw [hw] at hhalfway
      exact hhalfway
  | store _ _ | notify _ | release _ => trivial
  | stop _ _ _ =>
      -- a worker that has seen the flag set says so, and nothing is claimed about it
      rintro ⟨⟩
  | touch fault pos hw =>
      have hfault := hact fault pos rfl hw
      rw [hw] at hhalfway
      obtain ⟨hends, hgoes⟩ := hhalfway.1.touch hhalfway.2 s.mapped
      cases fault with
      | true =>
          intro _
          exact hends hfault.symm
      | false => exact hgoes hfault.symm
  | _ => exact hhalfway.same rfl rfl rfl

/-- INTERNAL: **the worker computes `probe_pages`.** When the flag has not stopped it, its result
and its touches are those of the call that is never cancelled.
SOURCE: mmap/prefetch.rs:35-66, 105-109 -/
theorem worker_probes {fuel : ℕ} {acts : List PrefetchAct} {result : Except AccessError Unit}
    (h : run (Prefetch.step page call) acts .init = some s)
    (hfaults : Along (Prefetch.step page call) (FaultsAs mem call) acts .init)
    (hwhole : probePages call.basePtr page mem never fuel call.offset call.len = some whole)
    (hworker : s.worker = .lock result) (hexit : s.cancelledExit = false) :
    whole = (result, s.touches.map Touch.addr) := by
  have hstart : Left page call mem whole [] call.offset := ⟨fuel, whole, hwhole, rfl⟩
  obtain ⟨-, hhalfway⟩ := run_invariant
    (fun s => Protocol page call s ∧ Halfway page call mem whole s s.worker)
    (halfway_step hstart) acts ⟨protocol_init page call, rfl⟩ hfaults h
  rw [hworker] at hhalfway
  exact hhalfway hexit

end Worker

/-! ## The two together -/

/-- RESULT: **the two page probers are one.** On a mapping that is not poisoned and that leaves
room for a page, for every range inside of it and every pattern of faults: `probe` returns, and
so does `probe_pages` when the flag is never set, with the same result after the same touches.
These are at the strides `offset + i * page` for the `i` below `len / page` rounded up, cut right
after the first that faults, and in the address space they increase, stay inside of the range and
are on pages of their own; the result is `Ok`, with nothing recorded, or the `Sigbus` at that
address, which is what `record_sigbus_from` gets. No position wraps, the one after the last touch
included; and the worker of every run of the two threads that the flag has not stopped ends like
that.
SOURCE: mmap/mod.rs:668-686, 1039-1055, mmap/prefetch.rs:35-66, mmap/guard.rs:93-128 -/
theorem probers_agree (self : SafeMmap) (page offset len : Usize) (mem : Memory)
    (hpage : 0 < page.toNat) (hroom : self.raw.len.toNat + page.toNat < 2 ^ 64)
    (hclean : self.poisoned = false)
    (hin : offset.toNat + len.toNat ≤ self.raw.len.toNat) :
    (∀ fuel, rounds page len < fuel → ∃ o,
      self.probe page mem fuel offset len = some o ∧
      probePages self.raw.ptr page mem never fuel offset len = some (o.result, o.touched) ∧
      CutAtFault mem (strideAddrs self.raw page offset 0 (rounds page len)) o.touched o.result ∧
      (self.raw.ptr.toNat + self.raw.len.toNat ≤ 2 ^ 64 →
        Orderly self.raw page offset len o.touched) ∧
      (o.result = .ok () ∧ o.mmap = self ∧ o.events = [] ∨
        ∃ addr, o.result = .error (.sigbus addr) ∧
          (o.mmap, o.events) = self.recordSigbusFrom (.sigbus addr))) ∧
    (∀ i ≤ rounds page len, (stride page offset i).toNat = offset.toNat + i * page.toNat) ∧
    ∀ timeout acts s result fuel,
      run (Prefetch.step page (self.prefetchCall offset len timeout)) acts .init = some s →
      Along (Prefetch.step page (self.prefetchCall offset len timeout))
        (FaultsAs mem (self.prefetchCall offset len timeout)) acts .init →
      s.worker = .lock result → s.cancelledExit = false → rounds page len < fuel →
        probePages self.raw.ptr page mem never fuel offset len =
          some (result, s.touches.map Touch.addr) := by
  have hfits : offset.toNat + len.toNat + page.toNat ≤ 2 ^ 64 := by omega
  refine ⟨?_, ?_, ?_⟩
  · intro fuel hfuel
    have hpages := probePages_eq mem hpage hroom.le hin hfuel
    have hcut := cutAtFault_touchAll mem (strideAddrs self.raw page offset 0 (rounds page len))
    have horderly (hspace : self.raw.ptr.toNat + self.raw.len.toNat ≤ 2 ^ 64) :=
      orderly_strides hpage hroom.le hspace hin hcut.begins
    rw [probe_eq mem hclean hpage hroom.le hin hfuel]
    generalize mem.touchAll 0 (strideAddrs self.raw page offset 0 (rounds page len)) = touched
      at hpages hcut horderly
    obtain ⟨touched, result⟩ := touched
    cases result with
    | ok value => exact ⟨_, rfl, hpages, hcut, horderly, Or.inl ⟨rfl, rfl, rfl⟩⟩
    | error addr => exact ⟨_, rfl, hpages, hcut, horderly, Or.inr ⟨addr, rfl, rfl⟩⟩
  · intro i hi
    exact stride_toNat hpage hfits hi
  · intro timeout acts s result fuel h hfaults hworker hexit hfuel
    have hpages := probePages_eq mem hpage hroom.le hin hfuel
    rw [hpages, worker_probes h hfaults hpages hworker hexit]

/-- A mapping of three pages, and a memory whose second page is gone. -/
def threePages : SafeMmap := SafeMmapOptions.new.finish ⟨0x10000, 12288, false⟩

/-- The second page of `threePages` faults. -/
def secondGone : Memory where
  bytes := fun _ => 0
  faults := fun _ addr => addr == 0x11000

/-- The worker touches the first page, and the second one faults. -/
def touchTwice : List PrefetchAct :=
  [.caller, .worker, .worker, .load false, .touch false, .worker, .load false, .touch true]

/-- Where the worker is after `touchTwice`. -/
def touchTwiceEnd : Prefetch :=
  { Prefetch.init with
    caller := .lock, worker := .lock (.error (.sigbus 0x11000))
    touches := [⟨0x10000, false, true⟩, ⟨0x11000, true, true⟩] }

/-- Both probers touch the first two pages of `threePages` and return the fault of the second,
which `probe` records; so does the worker in the run `touchTwice`. -/
theorem probers_agree_secondGone :
    (∃ o, threePages.probe 4096 secondGone 4 0 12288 = some o ∧
      o.touched = [0x10000, 0x11000] ∧ o.result = .error (.sigbus 0x11000) ∧
      o.mmap.sigbusCount = 1 ∧
      probePages 0x10000 4096 secondGone never 4 0 12288 = some (o.result, o.touched) ∧
      Orderly threePages.raw 4096 0 12288 o.touched) ∧
    run (Prefetch.step 4096 (threePages.prefetchCall 0 12288 1000)) touchTwice .init =
      some touchTwiceEnd ∧
    probePages 0x10000 4096 secondGone never 4 0 12288 =
      some (.error (.sigbus 0x11000), touchTwiceEnd.touches.map Touch.addr) := by
  obtain ⟨hboth, -, hworker⟩ := probers_agree threePages 4096 0 12288 secondGone (by decide)
    (by decide) rfl (by decide)
  obtain ⟨o, ho, hpages, -, horderly, -⟩ := hboth 4 (by decide)
  have hprobe : (threePages.probe 4096 secondGone 4 0 12288).map
      (fun o => (o.touched, o.result, o.mmap.sigbusCount)) =
        some ([0x10000, 0x11000], .error (.sigbus 0x11000), 1) := rfl
  rw [ho, Option.map_some, Option.some.injEq, Prod.mk.injEq, Prod.mk.injEq] at hprobe
  have hrun : run (Prefetch.step 4096 (threePages.prefetchCall 0 12288 1000)) touchTwice .init =
      some touchTwiceEnd := rfl
  have hfaults : Along (Prefetch.step 4096 (threePages.prefetchCall 0 12288 1000))
      (FaultsAs secondGone (threePages.prefetchCall 0 12288 1000)) touchTwice .init := by
    refine along_cons ?_ rfl (along_cons ?_ rfl (along_cons ?_ rfl (along_cons ?_ rfl
      (along_cons ?_ rfl (along_cons ?_ rfl (along_cons ?_ rfl (along_cons ?_ rfl trivial)))))))
    all_goals rintro fault pos ⟨⟩ ⟨⟩
    all_goals rfl
  exact ⟨⟨o, ho, hprobe.1, hprobe.2.1, hprobe.2.2, hpages, horderly (by decide)⟩, hrun,
    hworker 1000 touchTwice _ _ 4 hrun hfaults rfl rfl (by decide)⟩

end MmapShield.Analysis.Probers
