import MmapShield.Analysis.TheoremLocks
import MmapShield.Analysis.TheoremTransparency
import MmapShield.Computation.Simulation
import MmapShield.Model.Isolation

/-!
# What the advisory lock is for

When everyone who opens a file asks for the lock, a mapping behaves as if it were the only one: the
run of all the others between its open and its drop can be left out, and what remains is a run of
its own `Store`, which starts with the bytes of the file at its open. A file does not change while a
read-only mapping of it is there.

The lock table keeps writers away (`Guarded.alone`), and a mapping that is not writable leaves the
file alone (`step_base`). So a step of another mapping changes neither the file nor the mapping.
-/

set_option autoImplicit false

namespace MmapShield.Analysis.Isolated

open MmapShield.Computation MmapShield.Model MmapShield.Analysis.Locks
  MmapShield.Analysis.Transparency

variable {ρ : Type}

/-! ## The bytes of a window -/

section Windows

variable {options : SafeMmapOptions} {raw : RawMmap} {page : Usize} {store store' : Store}
  {file : ℕ → UInt8} {offset : ℕ}

/-- INTERNAL: what a mapping leaves in its window is what it finds there. -/
theorem fill_spill : store.fill (store.spill file offset) offset = store := by
  have hbase : (store.fill (store.spill file offset) offset).pages.base = store.pages.base := by
    funext addr
    simp only [Store.fill, Store.spill]
    split
    · rename_i hin
      rw [if_pos (by omega), Nat.add_sub_cancel_left, Nat.add_sub_cancel' hin.1]
    · rfl
  exact congrArg (fun base => { store with pages := { store.pages with base := base } }) hbase

/-- INTERNAL: a mapping that leaves the bytes alone leaves the file alone. -/
theorem spill_fill (hraw : store'.mmap.raw = store.mmap.raw)
    (hbase : store'.pages.base = (store.fill file offset).pages.base) :
    store'.spill file offset = file := by
  funext pos
  unfold Store.spill
  split
  · rename_i hin
    rw [hraw] at hin
    rw [hbase, hraw]
    simp only [Store.fill]
    rw [if_pos (by omega), Nat.add_sub_cancel_left, Nat.add_sub_cancel' hin.1]
  · rfl

/-- INTERNAL: a mapping that has just been opened has the bytes of the file. -/
theorem fill_start : (Store.start options raw fun i => file (offset + i)).fill file offset =
    Store.start options raw fun i => file (offset + i) := by
  have hbase : ((Store.start options raw fun i => file (offset + i)).fill file offset).pages.base =
      (Store.start options raw fun i => file (offset + i)).pages.base := by
    funext addr
    simp only [Store.fill]
    split <;> rfl
  exact congrArg (fun base => { Store.start options raw fun i => file (offset + i) with
    pages := { (Store.start options raw fun i => file (offset + i)).pages with base := base } })
    hbase

/-- INTERNAL: a store that starts has its mapping and no private copies. -/
theorem kept_start : Kept options raw (Store.start options raw file) :=
  ⟨rfl, fun _ _ => rfl⟩

/-- INTERNAL: so has a store whose pages are filled from the file. -/
theorem kept_fill (h : Kept options raw store) : Kept options raw (store.fill file offset) :=
  ⟨h.mmap, h.uncopied⟩

/-- INTERNAL: a mapping that is not writable refuses every write.
SOURCE: mmap/mod.rs:556-569 -/
theorem write_refused {mmap : SafeMmap} (hreadonly : mmap.raw.writable = false) (mem : Memory)
    (offset : Usize) (data : Slice) : ∃ e, (mmap.write mem offset data).result = .error e := by
  have hptr : mmap.raw.asMutPtr = none := by
    unfold RawMmap.asMutPtr
    rw [hreadonly]
    rfl
  unfold SafeMmap.write
  rw [hptr]
  split
  · exact ⟨_, rfl⟩
  · split <;> exact ⟨_, rfl⟩

/-- INTERNAL: **a mapping that is not writable leaves the file alone.**
SOURCE: mmap/mod.rs:556-569 -/
theorem step_base {act : StoreAct ρ} (hreadonly : store.mmap.raw.writable = false)
    (hstep : Store.step page act store = some store') :
    store'.pages.base = store.pages.base := by
  have hissue (kernel : PageKernel) (message : String) (offset len : Usize) (call : RangeCall) :
      (store.issue page kernel (store.mmap.raw.rangeCall kernel.toRangeKernel message offset len
        call)).pages.base = store.pages.base := by
    rw [issue_rangeCall]
    split
    · unfold RangeCall.effect
      split <;> rfl
    · rfl
  cases act with
  | write offset data =>
    cases hstep
    obtain ⟨e, he⟩ := write_refused hreadonly (store.memory page) offset data
    unfold Store.write
    simp only [he]
  | read start stop f =>
    cases hstep
    rfl
  | readInto offset buf =>
    cases hstep
    rfl
  | evict kernel offset len =>
    cases hstep
    exact hissue _ _ _ _ _
  | prefetch kernel offset len =>
    cases hstep
    exact hissue _ _ _ _ _
  | adviseRange kernel advice offset len =>
    cases hstep
    exact hissue _ _ _ _ _
  | flush kernel offset len asyncFlush =>
    cases hstep
    exact hissue _ _ _ _ _

end Windows

/-! ## The moves -/

section Moves

variable {η : Type} [DecidableEq η] {options : η → SafeMmapOptions} {page : Usize}
  {s s' : Isolation η} {h k : η}

/-- INTERNAL: the return of an open starts the store of the handle.
SOURCE: mmap/mod.rs:392-407 -/
theorem arrive_register {raw : RawMmap} (hp : s.locking.pc h = .register raw) :
    s.arrive options h .register = Function.update s.stores h
      (some (.start (options h) raw (s.window (options h)))) := by
  unfold Isolation.arrive
  rw [hp]

/-- INTERNAL: no other step starts a store. -/
theorem arrive_other {act : LockAct} (hact : act ≠ .register) :
    s.arrive options h act = s.stores := by
  cases act with
  | register => exact absurd rfl hact
  | _ => rfl

/-- INTERNAL: the return of one open leaves the stores of the other handles alone. -/
theorem arrive_of_ne {act : LockAct} (hk : k ≠ h) :
    s.arrive options h act k = s.stores k := by
  by_cases hact : act = .register
  · subst hact
    unfold Isolation.arrive
    cases hp : s.locking.pc h with
    | register raw => exact Function.update_of_ne hk _ _
    | _ => rfl
  · rw [arrive_other hact]

/-- INTERNAL: **what a step can do**: a step of an open or of a drop, or an operation on a
mapping that is live.
SOURCE: mmap/mod.rs:328-407, 503-585, 601-603, 646-648, 709-711, 733-735, 815-839, 1064-1068 -/
theorem step_cases {a : IsolationAct ρ} (hstep : Isolation.step options page (h, a) s = some s') :
    (∃ act locking, a = .lock act ∧
      Locking.step options page (h, act) s.locking = some locking ∧
      s' = { s with locking := locking, stores := s.arrive options h act }) ∨
    ∃ act mmap store store', a = .data act ∧ s.locking.pc h = .live mmap ∧
      s.storeOf options h = some store ∧ Store.step page act store = some store' ∧
      s' = { s with
        file := store'.spill s.file (options h).offset.toNat
        stores := Function.update s.stores h (some store') } := by
  unfold Isolation.step at hstep
  cases a with
  | lock act =>
      obtain ⟨locking, hlock, rfl⟩ := Option.map_eq_some_iff.mp hstep
      exact Or.inl ⟨act, locking, rfl, hlock, rfl⟩
  | data act =>
      dsimp only at hstep
      split at hstep
      · rename_i mmap store hp hstore
        obtain ⟨store', hdata, rfl⟩ := Option.map_eq_some_iff.mp hstep
        exact Or.inr ⟨act, mmap, store, store', rfl, hp, hstore, hdata, rfl⟩
      · cases hstep

end Moves

/-! ## The invariant -/

/-- What holds of the call at the point `c` of its code: its region is writable when its options
say so, and a mapping that is live is there. -/
def HandleSound (options : SafeMmapOptions) (store : Option Store) : HandlePc → Prop
  | .register raw => raw.writable = options.writable
  | .live _ => ∃ raw s, store = some s ∧ Kept options raw s ∧ raw.writable = options.writable
  | _ => True

/-- The invariant: the locks are in order, and so is every call. -/
structure Sound {η : Type} (options : η → SafeMmapOptions) (s : Isolation η) : Prop where
  guarded : Guarded options s.locking
  handles : ∀ h, HandleSound (options h) (s.stores h) (s.locking.pc h)

section Invariant

variable {η : Type} [DecidableEq η] {options : η → SafeMmapOptions} {page : Usize}
  {s s' : Isolation η} {h k : η}

omit [DecidableEq η] in
/-- INTERNAL: the invariant holds before the first open. -/
theorem sound_init (options : η → SafeMmapOptions) (file : ℕ → UInt8) :
    Sound options (Isolation.init η file) :=
  ⟨guarded_init options, fun _ => trivial⟩

/-- INTERNAL: a call comes to its mapping with a region that is writable when the options say so.
SOURCE: mmap/mod.rs:370-407, sys/mmap.rs:227-286 -/
theorem Sound.lock (hs : Sound options s) {act : LockAct} {locking : Locking η}
    (hstep : Locking.step options page (h, act) s.locking = some locking) :
    HandleSound (options h) (s.arrive options h act h) (locking.pc h) := by
  have hself (c : HandlePc) : (s.locking.goto h c).pc h = c := Function.update_self _ _ _
  unfold Locking.step at hstep
  dsimp only at hstep
  split at hstep
  · cases hstep
    rw [hself]
    trivial
  · cases hstep
    rw [hself]
    trivial
  · cases hstep
    rw [hself]
    cases (options h).flock <;> trivial
  · unfold Locking.flockStep at hstep
    split at hstep
    · cases hstep
      rw [hself]
      trivial
    · split at hstep
      · cases hstep
        show HandleSound _ _ ((s.locking.goto h _).pc h)
        rw [hself]
        trivial
      · cases hstep
  · cases hstep
    unfold Locking.metadataStep
    split
    · rw [hself]
      trivial
    · split <;> rw [hself] <;> trivial
  · cases hstep
    unfold Locking.mapStep
    split
    · rw [hself]
      trivial
    · rename_i raw hraw
      show HandleSound _ _ ((s.locking.goto h _).pc h)
      rw [hself]
      obtain ⟨-, -, -, -, hwritable⟩ := MmapOptions.map_ok hraw
      show raw.writable = (options h).writable
      rw [hwritable]
      unfold SafeMmapOptions.mmapOptions
      cases (options h).writable <;> rfl
  · rename_i raw hp
    cases hstep
    rw [hself, arrive_register hp, Function.update_self]
    have hsound := hs.handles h
    rw [hp] at hsound
    exact ⟨raw, _, rfl, kept_start, hsound⟩
  · cases hstep
    rw [hself]
    trivial
  · cases hstep
    show HandleSound _ _ ((s.locking.goto h _).pc h)
    rw [hself]
    trivial
  · rename_i error hp
    cases hstep
    show HandleSound _ _ ((s.locking.goto h _).pc h)
    rw [hself]
    cases error <;> trivial
  · cases hstep

/-- INTERNAL: **a step keeps the invariant.** -/
theorem Sound.step (a : η × IsolationAct ρ) (s s' : Isolation η) (hs : Sound options s)
    (hstep : Isolation.step options page a s = some s') : Sound options s' := by
  obtain ⟨h, a⟩ := a
  rcases step_cases hstep with ⟨act, locking, rfl, hlock, rfl⟩ |
    ⟨act, mmap, store, store', rfl, hlive, hstore, hdata, rfl⟩
  · refine ⟨hs.guarded.step (h, act) _ _ hlock, ?_⟩
    intro k
    by_cases hk : k = h
    · subst hk
      exact hs.lock hlock
    · show HandleSound (options k) (s.arrive options h act k) (locking.pc k)
      rw [arrive_of_ne hk, ((lock_move hlock).others hk).1]
      exact hs.handles k
  · refine ⟨hs.guarded, ?_⟩
    intro k
    show HandleSound (options k) (Function.update s.stores h (some store') k) (s.locking.pc k)
    by_cases hk : k = h
    · subst hk
      have hsound := hs.handles k
      rw [hlive] at hsound
      obtain ⟨raw, before, hbefore, hkept, hwritable⟩ := hsound
      rw [Isolation.storeOf, hbefore] at hstore
      cases hstore
      rw [Function.update_self, hlive]
      exact ⟨raw, store', rfl, (kept_fill hkept).step act _ _ hdata, hwritable⟩
    · rw [Function.update_of_ne hk]
      exact hs.handles k

end Invariant

/-! ## A mapping between its open and its drop -/

/-- The operation on the mapping of `h`, if the step is one. -/
def ownData {η : Type} [DecidableEq η] (h : η) : η × IsolationAct ρ → Option (StoreAct ρ)
  | (k, .data act) => if k = h then some act else none
  | (_, .lock _) => none

/-- The mapping of `h` is `store`, and a file that it may not write is still `file`. -/
structure Behind {η : Type} (options : η → SafeMmapOptions) (h : η) (file : ℕ → UInt8)
    (s : Isolation η) (store : Store) : Prop where
  sound : Sound options s
  live : ∃ mmap, s.locking.pc h = .live mmap
  store : s.storeOf options h = some store
  file : (options h).writable = false → s.file = file

section Between

variable {η : Type} [DecidableEq η] {options : η → SafeMmapOptions} {page : Usize}
  {s s' : Isolation η} {h k : η} {file : ℕ → UInt8} {store : Store}

/-- INTERNAL: the accesses of a handle are its data actions. -/
theorem ownData_eq_some {a : η × IsolationAct ρ} {act : StoreAct ρ} :
    ownData h a = some act ↔ a = (h, .data act) := by
  obtain ⟨k, a⟩ := a
  cases a with
  | lock lockAct => simp [ownData]
  | data dataAct => simp [ownData, Prod.ext_iff]

/-- INTERNAL: the only way out of a mapping is its drop. -/
theorem lock_live {act : LockAct} {u u' : Locking η} {mmap : SafeMmap}
    (hlive : u.pc h = .live mmap) (hstep : Locking.step options page (h, act) u = some u') :
    act = .drop := by
  unfold Locking.step at hstep
  dsimp only at hstep
  rw [hlive] at hstep
  cases act with
  | drop => rfl
  | openFile answer => cases answer <;> cases hstep
  | _ => cases hstep

omit [DecidableEq η] in
/-- INTERNAL: **an operation on a mapping that may not write leaves the file alone.**
SOURCE: mmap/mod.rs:556-569 -/
theorem Sound.file_kept (hs : Sound options s) {act : StoreAct ρ} {mmap : SafeMmap}
    {store' : Store} (hlive : s.locking.pc h = .live mmap)
    (hstore : s.storeOf options h = some store) (hdata : Store.step page act store = some store')
    (hreadonly : (options h).writable = false) :
    store'.spill s.file (options h).offset.toNat = s.file := by
  have hsound := hs.handles h
  rw [hlive] at hsound
  obtain ⟨raw, before, hbefore, hkept, hwritable⟩ := hsound
  rw [Isolation.storeOf, hbefore] at hstore
  cases hstore
  have hkept' := (kept_fill hkept).step act _ _ hdata
  refine spill_fill (hkept'.raw_eq.trans hkept.raw_eq.symm) (step_base ?_ hdata)
  show before.mmap.raw.writable = false
  rw [hkept.raw_eq, hwritable, hreadonly]

/-- INTERNAL: **an operation on the mapping is a step of its own.** -/
theorem Behind.own {act : StoreAct ρ} (hb : Behind options h file s store)
    (hstep : Isolation.step options page (h, .data act) s = some s') :
    ∃ store', Store.step page act store = some store' ∧ Behind options h file s' store' := by
  have hsound := hb.sound.step _ _ _ hstep
  rcases step_cases hstep with ⟨lockAct, locking, heq, -⟩ |
    ⟨dataAct, mmap, before, store', heq, hlive, hstore, hdata, rfl⟩
  · cases heq
  · cases heq
    rw [hb.store] at hstore
    cases hstore
    refine ⟨store', hdata, hsound, hb.live, ?_, ?_⟩
    · show (Function.update s.stores h (some store') h).map _ = _
      rw [Function.update_self]
      exact congrArg some fill_spill
    · intro hreadonly
      exact (hb.sound.file_kept hlive hb.store hdata hreadonly).trans (hb.file hreadonly)

/-- INTERNAL: **the steps of others change nothing**: those of an open or of a drop do not touch
the bytes, and a mapping that may write is not there.
SOURCE: mmap/mod.rs:336-347, 556-569 -/
theorem Behind.others {a : IsolationAct ρ} (hall : ∀ h, (options h).flock = true)
    (hb : Behind options h file s store) (hk : k ≠ h)
    (hstep : Isolation.step options page (k, a) s = some s') : Behind options h file s' store := by
  have hsound := hb.sound.step _ _ _ hstep
  obtain ⟨mmap, hlive⟩ := hb.live
  rcases step_cases hstep with ⟨act, locking, rfl, hlock, rfl⟩ |
    ⟨act, mmap', other, other', rfl, hlive', hother, hdata, rfl⟩
  · have hpc := ((lock_move hlock).others (Ne.symm hk)).1
    refine ⟨hsound, ⟨mmap, hpc.trans hlive⟩, ?_, hb.file⟩
    show (s.arrive options k act h).map _ = _
    rw [arrive_of_ne (Ne.symm hk)]
    exact hb.store
  · have hreadonly : (options k).writable = false := by
      by_contra hwritable
      rw [Bool.not_eq_false] at hwritable
      refine hk (Eq.symm (hb.sound.guarded.alone (hall k) (hall h) ?_ ?_ hwritable))
      · rw [hlive']
        rfl
      · rw [hlive]
        rfl
    have hfile := hb.sound.file_kept hlive' hother hdata hreadonly
    refine ⟨hsound, ⟨mmap, hlive⟩, ?_, ?_⟩
    · show (Function.update s.stores k (some other') h).map (fun left => left.fill
        (other'.spill s.file (options k).offset.toNat) (options h).offset.toNat) = some store
      rw [Function.update_of_ne (Ne.symm hk), hfile]
      exact hb.store
    · intro hown
      exact hfile.trans (hb.file hown)

/-- INTERNAL: what is left out of a run that keeps the mapping changes nothing. -/
theorem Behind.left {a : η × IsolationAct ρ} (hall : ∀ h, (options h).flock = true)
    (hb : Behind options h file s store) (hown : ownData h a = none) (hne : a ≠ (h, .lock .drop))
    (hstep : Isolation.step options page a s = some s') : Behind options h file s' store := by
  obtain ⟨k, a⟩ := a
  by_cases hk : k = h
  · subst hk
    cases a with
    | data act =>
        rw [ownData, if_pos rfl] at hown
        cases hown
    | lock act =>
        -- a mapping that is live has no other step of `open` or `drop` than the drop
        obtain ⟨mmap, hlive⟩ := hb.live
        rcases step_cases hstep with ⟨act', locking, heq, hlock, -⟩ | ⟨act', _, _, _, heq, -⟩
        · cases heq
          rw [lock_live hlive hlock] at hne
          exact absurd rfl hne
        · cases heq
  · exact hb.others hall hk hstep

/-- INTERNAL: **the last step of an `open`** makes a mapping of the bytes that the file has now.
SOURCE: mmap/mod.rs:392-407 -/
theorem Sound.opens {raw : RawMmap} (hs : Sound options s) (hraw : s.locking.pc h = .register raw)
    (hstep : Isolation.step options page (h, (.lock .register : IsolationAct ρ)) s = some s') :
    Behind options h s.file s' (.start (options h) raw (s.window (options h))) := by
  have hsound := hs.step _ _ _ hstep
  rcases step_cases hstep with ⟨act, locking, heq, hlock, rfl⟩ | ⟨act, _, _, _, heq, -⟩
  · cases heq
    unfold Locking.step at hlock
    dsimp only at hlock
    rw [hraw] at hlock
    cases hlock
    refine ⟨hsound, ⟨_, Function.update_self _ _ _⟩, ?_, fun _ => rfl⟩
    show (s.arrive options h .register h).map _ = _
    rw [arrive_register hraw, Function.update_self]
    exact congrArg some fill_start
  · cases heq

end Between

/-- RESULT: **the advisory lock isolates the mappings of a file.** When everyone who opens the file
asks for the lock, then for every run up to the last step of an `open`, and every run of all the
calls from there on that does not drop the mapping: leave out what the others did, their opens,
writes, evictions and drops, and what remains is a run of the mapping alone, which starts with the
bytes that the file had at the `open` and ends with the mapping as it is now, its bytes and its
private copies. If the mapping is not writable, the whole file is as it was at the `open`.
SOURCE: mmap/mod.rs:328-407, 503-585, 601-603, 646-648, 709-711, 733-735, 815-839, 1064-1068 -/
theorem locked_isolation {η : Type} [DecidableEq η] (options : η → SafeMmapOptions) (page : Usize)
    (hall : ∀ h, (options h).flock = true) (file : ℕ → UInt8)
    (before during : List (η × IsolationAct ρ)) (h : η) (raw : RawMmap) (s t : Isolation η)
    (hbefore : run (Isolation.step options page) before (.init η file) = some s)
    (hraw : s.locking.pc h = .register raw)
    (hduring : run (Isolation.step options page) ((h, .lock .register) :: during) s = some t)
    (hkept : (h, .lock .drop) ∉ during) :
    run (Store.step page) (during.filterMap (ownData h))
        (.start (options h) raw (s.window (options h))) = t.storeOf options h ∧
      ((options h).writable = false → t.file = s.file) := by
  have hsound : Sound options s :=
    reach_invariant (Sound options) Sound.step before (sound_init options file) hbefore
  obtain ⟨u, hopen, hrest⟩ := (run_cons _ _).mp hduring
  have hopened := hsound.opens hraw hopen
  have hstays : Along (Isolation.step options page)
      (fun a _ => a ≠ (h, .lock .drop)) during u :=
    along_of_forall fun a ha _ => ne_of_mem_of_not_mem ha hkept
  obtain ⟨store, hrun, hend⟩ : ∃ store, run (Store.step page) (during.filterMap (ownData h))
      (.start (options h) raw (s.window (options h))) = some store ∧
      Behind options h s.file t store := by
    refine run_projects (Behind options h s.file) (ownData h) ?_ ?_ during hopened hstays hrest
    · intro a act v w store hown _ hb hstep
      rw [ownData_eq_some.mp hown] at hstep
      exact hb.own hstep
    · intro a v w store hown hne hb hstep
      exact hb.left hall hown hne hstep
  exact ⟨hrun.trans hend.store.symm, hend.file⟩

/-- A reader, and any number of writers whose writes go to the file. -/
def readerAndWriters : ℕ → SafeMmapOptions
  | 0 => { SafeMmapOptions.new with flock := true }
  | _ => { SafeMmapOptions.new with flock := true, writable := true, shared := true }

/-- The steps of a call whose system calls all succeed, up to its `mmap`. -/
def mapsAt (h : ℕ) (ptr : Usize) : List (ℕ × IsolationAct UInt8) :=
  [(h, .lock .call), (h, .lock (.openFile (.ok 3))), (h, .lock (.flock (.ok ()))),
    (h, .lock (.metadata (.ok 4096))), (h, .lock (.map (.ok ptr)))]

/-- A writer writes a byte and is dropped, and the reader comes to its `mmap`. -/
def writerThenReader : List (ℕ × IsolationAct UInt8) :=
  mapsAt 1 0x20000 ++ [(1, .lock .register), (1, .data (.write 0 ⟨[9], by decide⟩)),
    (1, .lock .drop), (1, .lock .munmap), (1, .lock .close)] ++ mapsAt 0 0x10000

/-- The reader reads, and another writer is refused meanwhile. -/
def readingMeanwhile : List (ℕ × IsolationAct UInt8) :=
  [(2, .lock .call), (2, .lock (.openFile (.ok 4))), (0, .data (.read 0 1 SafeMmap.firstByte)),
    (2, .lock (.flock (.error (.lastOsError 11)))), (2, .lock .close)]

/-- The reader sees the byte of the first writer, and nothing of the second. -/
theorem locked_isolation_reader :
    ∃ s t, run (Isolation.step readerAndWriters 4096) writerThenReader
        (.init ℕ fun _ => 0) = some s ∧
      run (Isolation.step readerAndWriters 4096) ((0, .lock .register) :: readingMeanwhile) s =
        some t ∧
      run (Store.step 4096) [.read 0 1 SafeMmap.firstByte]
        (.start (readerAndWriters 0) ⟨0x10000, 4096, false⟩ (s.window (readerAndWriters 0))) =
          t.storeOf readerAndWriters 0 ∧
      t.file = s.file ∧ t.file 0 = 9 := by
  have hall (h : ℕ) : (readerAndWriters h).flock = true := by
    cases h <;> rfl
  refine ⟨_, _, rfl, rfl, ?_, ?_, rfl⟩
  · exact (locked_isolation readerAndWriters 4096 hall _ writerThenReader readingMeanwhile 0
      ⟨0x10000, 4096, false⟩ _ _ rfl rfl rfl (by simp [readingMeanwhile])).1
  · exact (locked_isolation readerAndWriters 4096 hall _ writerThenReader readingMeanwhile 0
      ⟨0x10000, 4096, false⟩ _ _ rfl rfl rfl (by simp [readingMeanwhile])).2 rfl

end MmapShield.Analysis.Isolated
