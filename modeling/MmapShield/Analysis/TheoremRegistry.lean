import MmapShield.Analysis.RegistryInvariant

/-!
# The registry over whole runs

Two results about every run of any number of threads.

* `registry_exact`: what is published is exactly what is registered, one entry for each
  mapping, and every step of `open`, `drop`, `register` and `unregister` changes it in
  the way it should.
* `scans_live_iff`: a handler scans a snapshot that has been freed exactly when three
  mutations that were not complete at its load have rotated before its scan. Nothing in
  `signal/registry.rs` keeps the mutations away for so long; `scan_overtaken` is a run
  in which they are not kept away.
-/

set_option autoImplicit false

namespace MmapShield.Analysis

open MmapShield.Computation MmapShield.Model

variable {ι : Type} [DecidableEq ι]

/-! ## Two threads -/

/-- A kernel in which every call of an `open` succeeds and the file has one page, which it
maps at `ptr`. -/
def kernelAt (ptr : Usize) : Kernel where
  openFile := fun _ => .ok 3
  flock := fun _ _ => .ok ()
  metadata := fun _ => .ok 4096
  mmap := fun _ => .ok ptr

/-- The thread `t` opens a file that is mapped at `ptr`. -/
def openAt (t : Fin 2) (ptr : Usize) : List (Fin 2 × Act) :=
  (t, .openMap .new (kernelAt ptr)) :: List.replicate 6 (t, .next)

/-- The first thread opens two files and drops the first of them, up to its swap, while the
second thread opens a third file, up to its lock. -/
def openAndDrop : List (Fin 2 × Act) :=
  openAt 0 0x10000 ++ openAt 0 0x20000 ++ [(0, .dropMap 0)] ++
    List.replicate 4 (0, .next) ++ [(1, .openMap .new (kernelAt 0x30000))]

/-- The first thread opens a file and is in the closure of a protected call over it. -/
def inClosure : List (Fin 2 × Act) :=
  openAt 0 0x10000 ++ [(0, .protect 0), (0, .next), (0, .next)]

/-- The first thread recovers from a fault while the second one opens a file. -/
def recovers : List (Fin 2 × Act) :=
  [(0, .next), (0, .next)] ++ openAt 1 0x20000

/-! ## Exactness -/

/-- How a step of the thread `t` may change the published regions: the swap of `register`
adds the region of its mapping, the swap of `unregister` removes that entry and no other,
and nothing else changes them. -/
def EntryChange (s : Process ι) (t : ι) (s' : Process ι) : Prop :=
  match s.control t with
  | .mutate m (.register _ _) (.swap _) =>
    ∃ x, s.maps m = some x ∧ s'.registry.regions = s.registry.regions ++ [x.region]
  | .mutate m (.unregister _) (.swap _) =>
    ∃ x, s.maps m = some x ∧ x.region ∈ s.registry.regions ∧
      s'.registry.regions = s.registry.regions.erase x.region
  | _ => s'.registry.regions = s.registry.regions

/-- INTERNAL: only a swap changes what is published. -/
theorem View.Move.regions_eq {v v' : View ι} {t : ι} (h : Sound v) (hmove : v.Move t v')
    (hc : ∀ m op regions, v.control t ≠ .mutate m op (.swap regions)) :
    v'.registry.regions = v.registry.regions := by
  cases hmove with
  | skip m op old hc' he => exact (h.published.not_skipped h.locked h.owned hc' he).elim
  | swap m op regions hc' => exact absurd hc' (hc m op regions)
  | _ => rfl

/-- INTERNAL: the swap of a mutation is a step that publishes its regions.
SOURCE: signal/registry.rs:92-93, 121-122 -/
theorem step_swap [Fintype ι] {page : Usize} {t : ι} {act : Act} {s s' : Process ι} {m : ℕ}
    {op : Mutation} {regions : List RegisteredRegion}
    (hstep : Process.step page (t, act) s = some s')
    (hc : s.control t = .mutate m op (.swap regions)) : s'.registry.regions = regions := by
  unfold Process.step at hstep
  split at hstep
  · cases hstep
  · unfold Process.stepThread at hstep
    simp only [hc] at hstep
    cases act with
    | next =>
      cases hstep
      exact congrArg (fun o => o.getD []) (publish_snapshot s.registry regions)
    | _ => cases hstep

/-- INTERNAL: without duplicates, and with no second entry at the same start, the filter
of `unregister` removes one entry.
SOURCE: signal/registry.rs:119 -/
theorem filter_start_eq_erase {regions : List RegisteredRegion} {r : RegisteredRegion}
    (hnodup : regions.Nodup) (hstart : ∀ r' ∈ regions, r'.start = r.start → r' = r) :
    regions.filter (fun x => x.start != r.start) = regions.erase r := by
  rw [hnodup.erase_eq_filter]
  apply List.filter_congr
  intro x hx
  have heq : x.start = r.start ↔ x = r := ⟨hstart x hx, fun h => h ▸ rfl⟩
  rw [Bool.eq_iff_iff, bne_iff_ne, bne_iff_ne]
  exact not_congr heq

/-- INTERNAL: **what a step does to the published regions.**
SOURCE: signal/registry.rs:75-127 -/
theorem entryChange_of_step [Fintype ι] {page : Usize} {t : ι} {act : Act} {s s' : Process ι}
    (h : Sound (View.of s)) (hstep : Process.step page (t, act) s = some s') :
    EntryChange s t s' := by
  have hquiet (hc : ∀ m op regions, s.control t ≠ .mutate m op (.swap regions)) :
      s'.registry.regions = s.registry.regions := (step_move hstep).regions_eq h hc
  have hlocked := h.locked.threads t
  have howned := h.owned.threads t
  have hview : (View.of s).control t = s.control t := rfl
  rw [hview] at hlocked howned
  unfold EntryChange
  split
  · rename_i m start len regions hc
    have hregions := step_swap hstep hc
    rw [hc] at hlocked howned
    obtain ⟨-, -, hedit⟩ := hlocked.here rfl
    obtain ⟨x, hx, ⟨rfl, rfl⟩, -⟩ := howned
    have hedited := edit_regions (.register x.ptr x.len) s.registry
    rw [show Mutation.edit (.register x.ptr x.len) s.registry.snapshot = some regions from hedit,
      Option.getD_some] at hedited
    simp only [newRegion_eq (h.owned.known m x hx).2.2] at hedited
    exact ⟨x, hx, hregions.trans hedited⟩
  · rename_i m start regions hc
    have hregions := step_swap hstep hc
    rw [hc] at hlocked howned
    obtain ⟨-, -, hedit⟩ := hlocked.here rfl
    obtain ⟨x, hx, habout, hphase⟩ := howned
    have hstart : x.ptr = start := habout
    subst hstart
    have hedited := edit_regions (.unregister x.ptr) s.registry
    rw [show Mutation.edit (.unregister x.ptr) s.registry.snapshot = some regions from hedit,
      Option.getD_some] at hedited
    have hregistered : x.phase.isRegistered = true := by
      rw [hphase]
      rfl
    have hmapped : x.phase.isMapped = true := by
      rw [hphase]
      rfl
    refine ⟨x, hx, (h.published.exact _).mpr ⟨m, x, hx, hregistered, rfl⟩, ?_⟩
    rw [hregions, hedited]
    refine filter_start_eq_erase (r := x.region) h.published.nodup ?_
    intro r hr hsame
    rcases (registeredIn_iff hx r).mp ((h.published.exact r).mp hr) with hr | ⟨-, hr⟩
    · exact absurd hsame (h.owned.elsewhere_start hx hmapped hr)
    · exact hr.symm
  · rename_i hregister hunregister
    refine hquiet ?_
    intro m op regions hc
    cases op with
    | register start len => exact hregister m start len regions hc
    | unregister start => exact hunregister m start regions hc

/-- INTERNAL: a mapping is unregistered before it is unmapped.
SOURCE: mmap/mod.rs:1064-1068, sys/mmap.rs:580-589 -/
theorem isMapped_of_isRegistered {phase : MapPhase} (h : phase.isRegistered = true) :
    phase.isMapped = true := by
  cases phase <;> first | rfl | cases h

omit [DecidableEq ι] in
/-- INTERNAL: two published regions are apart.
SOURCE: signal/registry.rs:75-127 -/
theorem Sound.regions_apart {v : View ι} (h : Sound v) {r r' : RegisteredRegion}
    (hr : r ∈ v.registry.regions) (hr' : r' ∈ v.registry.regions) (hne : r ≠ r') :
    (r.stop ≤ r'.start ∨ r'.stop ≤ r.start) ∧ r.start ≠ r'.start := by
  obtain ⟨m, x, hx, hreg, rfl⟩ := (h.published.exact r).mp hr
  obtain ⟨m', x', hx', hreg', rfl⟩ := (h.published.exact r').mp hr'
  have hmm : m ≠ m' := by
    rintro rfl
    rw [hx] at hx'
    cases hx'
    exact hne rfl
  have hapart := h.owned.disjoint m m' x x' hmm hx hx' (isMapped_of_isRegistered hreg)
    (isMapped_of_isRegistered hreg')
  have hlen := (h.owned.known m x hx).2.1
  have hlen' := (h.owned.known m' x' hx').2.1
  refine ⟨hapart, ?_⟩
  show x.ptr ≠ x'.ptr
  omega

omit [DecidableEq ι] in
/-- INTERNAL: `contains` finds the bytes of the registered mappings and nothing else.
SOURCE: signal/registry.rs:141-153 -/
theorem Sound.contains_iff {v : View ι} (h : Sound v) (addr : ℕ) :
    contains v.registry addr = true ↔
      ∃ m x, v.maps m = some x ∧ x.phase.isRegistered = true ∧ x.has addr := by
  rw [contains_eq, scanRegions_iff]
  refine ⟨?_, ?_⟩
  · rintro ⟨r, hr, hlo, hhi⟩
    obtain ⟨m, x, hx, hreg, rfl⟩ := (h.published.exact r).mp hr
    exact ⟨m, x, hx, hreg, hlo, hhi⟩
  · rintro ⟨m, x, hx, hreg, hlo, hhi⟩
    exact ⟨x.region, (h.published.exact _).mpr ⟨m, x, hx, hreg, rfl⟩, hlo, hhi⟩

/-- INTERNAL: an `open` that fails leaves the process as it was.
SOURCE: mmap/mod.rs:328-392 -/
theorem step_open_failed [Fintype ι] {page : Usize} {t : ι} {opts : SafeMmapOptions}
    {kernel : Kernel} {e : MmapError} {s s' : Process ι}
    (hfail : opts.openRaw page kernel = .error e)
    (hstep : Process.step page (t, .openMap opts kernel) s = some s') : s' = s := by
  unfold Process.step at hstep
  split at hstep
  · cases hstep
  · unfold Process.stepThread at hstep
    cases hc : s.control t with
    | idle =>
      simp only [hc, hfail, Option.some.injEq] at hstep
      exact hstep.symm
    | _ => simp [hc] at hstep

/-- RESULT: **the registry is exact.** After every run the published list has one entry
`[ptr, ptr + len)` for each mapping that has registered and not yet unregistered and no
other entry; the entries are pairwise disjoint with distinct starts and each is a range
that is still mapped; `contains` answers for the bytes of these mappings; each further
step changes the list as `EntryChange` says, and an `open` that fails changes nothing.
SOURCE: signal/registry.rs:75-153, mmap/mod.rs:328-407, 1064-1068, sys/mmap.rs:580-589 -/
theorem registry_exact [Fintype ι] (page : Usize) (acts : List (ι × Act)) (s : Process ι)
    (h : run (Process.step page) acts (Process.init ι) = some s) :
    (∀ r, r ∈ s.registry.regions ↔
      ∃ m x, s.maps m = some x ∧ x.phase.isRegistered = true ∧ x.region = r) ∧
    (∀ m x, s.maps m = some x → x.phase.isRegistered = true →
      s.registry.regions.count x.region = 1 ∧
        ∀ m' x', s.maps m' = some x' → x'.phase.isRegistered = true → x'.region = x.region →
          m' = m) ∧
    s.registry.regions.Pairwise (fun r r' =>
      (r.stop ≤ r'.start ∨ r'.stop ≤ r.start) ∧ r.start ≠ r'.start) ∧
    (∀ r ∈ s.registry.regions, ∃ m x, s.maps m = some x ∧ x.phase.isMapped = true ∧
      x.ptr = r.start ∧ x.ptr + x.len = r.stop) ∧
    (∀ addr, contains s.registry addr = true ↔
      ∃ m x, s.maps m = some x ∧ x.phase.isRegistered = true ∧ x.has addr) ∧
    (∀ t act s', Process.step page (t, act) s = some s' → EntryChange s t s') ∧
    (∀ t opts kernel e s', opts.openRaw page kernel = .error e →
      Process.step page (t, .openMap opts kernel) s = some s' → s' = s) := by
  have hsound := reachable_sound acts h
  have hexact := hsound.published.exact
  have hnodup := hsound.published.nodup
  refine ⟨hexact, ?_, ?_, ?_, hsound.contains_iff, ?_, ?_⟩
  · intro m x hx hreg
    refine ⟨List.count_eq_one_of_mem hnodup ((hexact _).mpr ⟨m, x, hx, hreg, rfl⟩), ?_⟩
    intro m' x' hx' hreg' hsame
    by_contra hne
    have hapart := hsound.owned.disjoint m' m x' x hne hx' hx (isMapped_of_isRegistered hreg')
      (isMapped_of_isRegistered hreg)
    have hptr : x'.ptr = x.ptr := congrArg RegisteredRegion.start hsame
    have hlen := (hsound.owned.known m x hx).2.1
    have hlen' := (hsound.owned.known m' x' hx').2.1
    omega
  · refine hnodup.pairwise_of_forall_ne ?_
    intro r hr r' hr' hne
    exact hsound.regions_apart hr hr' hne
  · intro r hr
    obtain ⟨m, x, hx, hreg, rfl⟩ := (hexact r).mp hr
    exact ⟨m, x, hx, isMapped_of_isRegistered hreg, rfl, rfl⟩
  · intro t act s' hstep
    exact entryChange_of_step hsound hstep
  · intro t opts kernel e s' hfail hstep
    exact step_open_failed hfail hstep

/-- The run `openAndDrop` is one of those that `registry_exact` is about. -/
theorem registry_exact_openAndDrop :
    ∃ s, run (Process.step 4096) openAndDrop (Process.init (Fin 2)) = some s ∧
      s.registry.regions = [⟨0x10000, 0x11000⟩, ⟨0x20000, 0x21000⟩] ∧
      contains s.registry 0x20fff = true ∧
      s.registry.regions.count ⟨0x10000, 0x11000⟩ = 1 := by
  have hregions : (run (Process.step 4096) openAndDrop (Process.init (Fin 2))).map
      (fun s => (s.registry.regions, (s.maps 0).map fun x => (x.region, x.phase))) =
      some ([⟨0x10000, 0x11000⟩, ⟨0x20000, 0x21000⟩],
        some (⟨0x10000, 0x11000⟩, .dropping)) := by
    decide
  obtain ⟨s, hs, hreg⟩ := Option.map_eq_some_iff.mp hregions
  obtain ⟨hreg, hmap⟩ := Prod.mk.inj hreg
  obtain ⟨x, hx, hxr⟩ := Option.map_eq_some_iff.mp hmap
  obtain ⟨hxr, hphase⟩ := Prod.mk.inj hxr
  obtain ⟨-, hcount, -⟩ := registry_exact 4096 openAndDrop s hs
  have hone := (hcount 0 x hx (by rw [hphase]; rfl)).1
  rw [hxr] at hone
  refine ⟨s, hs, hreg, ?_, hone⟩
  rw [contains_eq, hreg]
  decide

/-! ## Deferred reclamation -/

/-- The step `a` scans a snapshot that has been freed.
SOURCE: signal/registry.rs:148-152, 170-173 -/
def ScansFreed (a : ι × Act) (s : Process ι) : Prop :=
  ∃ stale m addr i loadedAt, a.2 = .scan stale ∧
    s.control a.1 = .protect m (.scan addr (some i) loadedAt) ∧ i ∈ s.registry.freed

/-- When the step `a` scans, at most two calls of `register` or `unregister` that had not
published when the handler loaded have rotated. -/
def ScansInTime (a : ι × Act) (s : Process ι) : Prop :=
  ∀ stale m addr snap loadedAt, a.2 = .scan stale →
    s.control a.1 = .protect m (.scan addr snap loadedAt) →
    s.registry.rotations ≤ loadedAt + 2

omit [DecidableEq ι] in
/-- INTERNAL: a scan is of a live snapshot exactly when it is in time.
SOURCE: signal/registry.rs:155-175 -/
theorem not_scansFreed_iff {s : Process ι} (h : Sound (View.of s)) (a : ι × Act) :
    ¬ ScansFreed a s ↔ ScansInTime a s := by
  have hfreed (m addr i loadedAt : ℕ)
      (hc : s.control a.1 = .protect m (.scan addr (some i) loadedAt)) :
      i ∈ s.registry.freed ↔ loadedAt + 3 ≤ s.registry.rotations := by
    obtain ⟨x, j, -, hj, hloaded, -⟩ := h.readers a.1 m addr (some i) loadedAt hc
    cases hj
    exact hloaded.freed_iff h.locked.grace
  refine ⟨?_, ?_⟩
  · intro hlive stale m addr snap loadedAt hact hc
    obtain ⟨x, i, -, hsnap, -⟩ := h.readers a.1 m addr snap loadedAt hc
    subst hsnap
    by_contra hlate
    refine hlive ⟨stale, m, addr, i, loadedAt, hact, hc, ?_⟩
    rw [hfreed m addr i loadedAt hc]
    omega
  · rintro hin ⟨stale, m, addr, i, loadedAt, hact, hc, hmem⟩
    have hle := hin stale m addr (some i) loadedAt hact hc
    rw [hfreed m addr i loadedAt hc] at hmem
    omega

/-- RESULT: **when the deferred reclamation is safe.** In a run no handler scans a freed
snapshot if and only if at each of its scans at most two of the mutations that had not
published at the handler's load have rotated.
SOURCE: signal/registry.rs:39-50, 75-127, 141-175 -/
theorem scans_live_iff [Fintype ι] (page : Usize) (acts : List (ι × Act)) :
    Along (Process.step page) (fun a s => ¬ ScansFreed a s) acts (Process.init ι) ↔
      Along (Process.step page) ScansInTime acts (Process.init ι) :=
  along_congr (fun s => Sound (View.of s)) Sound.step (fun a _ h => not_scansFreed_iff h a)
    acts sound_init

/-- The first thread faults in its mapping and its handler loads the published snapshot;
then the second thread opens three files, the third of them up to its rotation. -/
def overtaken : List (Fin 2 × Act) :=
  openAt 0 0x10000 ++ [(0, .protect 0), (0, .next), (0, .next), (0, .touch 0x10000 true),
    (0, .next), (0, .next)] ++ openAt 1 0x20000 ++ openAt 1 0x30000 ++
    [(1, .openMap .new (kernelAt 0x40000)), (1, .next), (1, .next)]

/-- A handler whose thread is held up between its load and its scan scans a snapshot that
has been freed. -/
theorem scan_overtaken :
    ¬ Along (Process.step 4096) (fun a s => ¬ ScansFreed a s) (overtaken ++ [(0, .scan [])])
      (Process.init (Fin 2)) := by
  have hend : (run (Process.step 4096) overtaken (Process.init (Fin 2))).map
      (fun s => (s.control 0, s.registry.freed)) =
      some (.protect 0 (.scan 0x10000 (some 0) 1), [0]) := by
    decide
  obtain ⟨s, hs, hat⟩ := Option.map_eq_some_iff.mp hend
  obtain ⟨hc, hfreed⟩ := Prod.mk.inj hat
  intro halong
  refine halong.at_step hs ⟨[], 0, 0x10000, 0, 1, rfl, hc, ?_⟩
  rw [hfreed]
  exact List.mem_singleton_self 0

end MmapShield.Analysis
