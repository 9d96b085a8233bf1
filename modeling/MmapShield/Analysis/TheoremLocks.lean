import MmapShield.Computation.Machine
import MmapShield.Model.Locking

/-!
# Readers, writers and the advisory lock

`locks_exclude` is about every interleaving of opens and drops on one file: the live mappings
that were opened with `flock(true)` are all read-only or a single one, each of them has its lock
from before its `mmap` until after its `munmap`, and an open that fails leaves the locks as they
were. The invariant `Guarded` says at which points of its code a call holds its lock
(`locking`), and that nobody holds one elsewhere.

`open_outcome` ties the steps to `openRaw`: a call whose system calls are answered by a `Kernel`
comes to the mapping, or to the error, that `openRaw` returns.
-/

set_option autoImplicit false

namespace MmapShield.Analysis.Locks

open MmapShield.Computation MmapShield.Model

variable {η : Type} [DecidableEq η] {options : η → SafeMmapOptions} {page : Usize}
  {s s' : Locking η} {h : η}

/-- From the grant of the lock to the close of the file. -/
def locking : HandlePc → Bool
  | .metadata _ | .map _ _ | .register _ | .live _ | .munmap _ => true
  | _ => false

/-- A call that fails may come to its close with or without the lock. -/
def mayHold : HandlePc → Bool
  | .close _ => true
  | c => locking c

/-- From `mmap` to `munmap`. -/
def inMemory : HandlePc → Bool
  | .register _ | .live _ | .munmap _ => true
  | _ => false

/-- The call has failed, or its mapping has been dropped. -/
def isOver : HandlePc → Bool
  | .failed _ | .dropped => true
  | _ => false

/-- What holds of the call `h` at the point `c` of its code: which lock it may hold, that it has
it, and whether its region is mapped. -/
structure HandleOk (options : η → SafeMmapOptions) (held : LockTable η FlockOp) (mapped : Bool)
    (h : η) (c : HandlePc) : Prop where
  kind : ∀ op, (h, op) ∈ held → op = (options h).flockOp ∧ mayHold c = true
  kept : (options h).flock = true → locking c = true → (h, (options h).flockOp) ∈ held
  asks : ∀ fd, c = .flock fd → (options h).flock = true
  mapped : mapped = inMemory c

/-- The invariant: every call is in order, and the locks go together. -/
structure Guarded (options : η → SafeMmapOptions) (s : Locking η) : Prop where
  peaceful : LockTable.Peaceful FlockOp.fits s.held
  handles : ∀ h, HandleOk options s.held (s.mapped h) h (s.pc h)

/-! ## The moves -/

/-- What a step of the call `h` can do. -/
inductive Move (options : η → SafeMmapOptions) (s : Locking η) (h : η) : Locking η → Prop
  | quiet (c : HandlePc)
      (hlock : (options h).flock = true → locking c = true → locking (s.pc h) = true)
      (hhold : mayHold (s.pc h) = true → mayHold c = true)
      (hasks : ∀ fd, c = .flock fd → (options h).flock = true)
      (hmapped : inMemory c = inMemory (s.pc h)) : Move options s h (s.goto h c)
  | grant (fd : ℤ) (hp : s.pc h = .flock fd)
      (hadmits : s.held.admits FlockOp.fits h (options h).flockOp = true) :
      Move options s h { s.goto h (.metadata fd) with
        held := s.held.acquire h (options h).flockOp }
  | map (fd : ℤ) (mapLen : Usize) (raw : RawMmap) (hp : s.pc h = .map fd mapLen) :
      Move options s h { s.goto h (.register raw) with mapped := Function.update s.mapped h true }
  | unmap (raw : RawMmap) (hp : s.pc h = .munmap raw) :
      Move options s h { s.goto h (.close none) with mapped := Function.update s.mapped h false }
  | close (error : Option MmapError) (hp : s.pc h = .close error) :
      Move options s h { s.goto h (error.elim .dropped .failed) with held := s.held.release h }

/-- INTERNAL: a step from `p` to `c` that leaves the locks and the region alone. -/
theorem Move.next {p c : HandlePc} (hp : s.pc h = p)
    (hlock : (options h).flock = true → locking c = true → locking p = true)
    (hhold : mayHold p = true → mayHold c = true)
    (hasks : ∀ fd, c = .flock fd → (options h).flock = true) (hmapped : inMemory c = inMemory p) :
    Move options s h (s.goto h c) := by
  subst hp
  exact .quiet c hlock hhold hasks hmapped

/-- INTERNAL: a call that goes to its close keeps what it has until then. -/
theorem Move.closing {p : HandlePc} {error : Option MmapError} (hp : s.pc h = p)
    (hmapped : inMemory p = false) : Move options s h (s.goto h (.close error)) :=
  .next hp (fun _ hlock => absurd hlock Bool.false_ne_true) (fun _ => rfl) (by rintro fd ⟨⟩)
    hmapped.symm

/-- INTERNAL: **what a step can do.**
SOURCE: mmap/mod.rs:328-407, 1064-1068, sys/mmap.rs:580-589 -/
theorem lock_move {act : LockAct} (hstep : Locking.step options page (h, act) s = some s') :
    Move options s h s' := by
  unfold Locking.step at hstep
  dsimp only at hstep
  split at hstep
  · rename_i hp
    cases hstep
    exact .next hp (fun _ => id) id (by rintro fd ⟨⟩) rfl
  · rename_i e hp
    cases hstep
    exact .next hp (fun _ => id) id (by rintro fd ⟨⟩) rfl
  · rename_i fd hp
    cases hstep
    cases hflock : (options h).flock with
    | true => exact .next hp (fun _ => id) id (fun _ _ => hflock) rfl
    | false =>
        -- without `flock(true)` the call passes the point of the lock with nothing in hand
        refine .next hp ?_ (fun _ => rfl) (by rintro fd ⟨⟩) rfl
        intro hlock
        rw [hflock] at hlock
        cases hlock
  · rename_i answer fd hp
    unfold Locking.flockStep at hstep
    split at hstep
    · cases hstep
      exact .closing hp rfl
    · split at hstep
      · rename_i hadmits
        cases hstep
        exact .grant fd hp hadmits
      · cases hstep
  · rename_i answer fd hp
    cases hstep
    unfold Locking.metadataStep
    split
    · exact .closing hp rfl
    · split
      · exact .closing hp rfl
      · exact .next hp (fun _ => id) id (by rintro fd ⟨⟩) rfl
  · rename_i answer fd mapLen hp
    cases hstep
    unfold Locking.mapStep
    split
    · exact .closing hp rfl
    · exact .map fd mapLen _ hp
  · rename_i raw hp
    cases hstep
    exact .next hp (fun _ => id) id (by rintro fd ⟨⟩) rfl
  · rename_i mmap hp
    cases hstep
    exact .next hp (fun _ => id) id (by rintro fd ⟨⟩) rfl
  · rename_i raw hp
    cases hstep
    exact .unmap raw hp
  · rename_i error hp
    cases hstep
    exact .close error hp
  · cases hstep

/-- INTERNAL: a step changes the locks of its own call only.
SOURCE: mmap/mod.rs:343, 397-405 -/
theorem Move.locks (hmove : Move options s h s') :
    LockTable.release s'.held h = LockTable.release s.held h := by
  cases hmove with
  | quiet c hlock hhold hasks hmapped => rfl
  | grant fd hp hadmits => exact LockTable.release_acquire
  | map fd mapLen raw hp => rfl
  | unmap raw hp => rfl
  | close error hp => exact LockTable.release_release

/-- INTERNAL: and it leaves the other calls where they are. -/
theorem Move.others (hmove : Move options s h s') {u : η} (hu : u ≠ h) :
    s'.pc u = s.pc u ∧ s'.mapped u = s.mapped u := by
  cases hmove with
  | quiet c hlock hhold hasks hmapped => exact ⟨Function.update_of_ne hu _ _, rfl⟩
  | grant fd hp hadmits => exact ⟨Function.update_of_ne hu _ _, rfl⟩
  | map fd mapLen raw hp =>
      exact ⟨Function.update_of_ne hu _ _, Function.update_of_ne hu _ _⟩
  | unmap raw hp => exact ⟨Function.update_of_ne hu _ _, Function.update_of_ne hu _ _⟩
  | close error hp => exact ⟨Function.update_of_ne hu _ _, rfl⟩

/-! ## The invariant -/

/-- INTERNAL: two locks fit together in either order. -/
theorem fits_symm (x y : FlockOp) : FlockOp.fits x y = FlockOp.fits y x := by
  cases x <;> cases y <;> rfl

omit [DecidableEq η] in
/-- INTERNAL: the invariant holds before the first open. -/
theorem guarded_init (options : η → SafeMmapOptions) : Guarded options (Locking.init η) where
  peaceful := by
    intro a ha
    cases ha
  handles := by
    intro h
    refine ⟨?_, ?_, ?_, rfl⟩
    · intro op hmem
      cases hmem
    · intro _ hlock
      cases hlock
    · intro fd hp
      cases hp

omit [DecidableEq η] in
/-- INTERNAL: outside of the points between the grant and the close nothing is held. -/
theorem Guarded.free (hg : Guarded options s) (hp : mayHold (s.pc h) = false) :
    LockTable.Free s.held h := by
  intro op hmem
  have hhold := ((hg.handles h).kind op hmem).2
  rw [hp] at hhold
  cases hhold

/-- INTERNAL: what the call that moves has to show. -/
theorem Guarded.own (hg : Guarded options s) (hmove : Move options s h s')
    (hpeaceful : LockTable.Peaceful FlockOp.fits s'.held)
    (hown : HandleOk options s'.held (s'.mapped h) h (s'.pc h)) : Guarded options s' := by
  refine ⟨hpeaceful, ?_⟩
  intro u
  by_cases hu : u = h
  · rw [hu]
    exact hown
  · obtain ⟨hpc, hmapped⟩ := hmove.others hu
    have hheld (op : FlockOp) : (u, op) ∈ s'.held ↔ (u, op) ∈ s.held := by
      have hiff := congrArg (fun held => (u, op) ∈ held) hmove.locks
      simpa [hu] using hiff
    have hold := hg.handles u
    rw [hpc, hmapped]
    refine ⟨?_, ?_, hold.asks, hold.mapped⟩
    · intro op hmem
      exact hold.kind op ((hheld op).mp hmem)
    · intro hflock hlock
      exact (hheld _).mpr (hold.kept hflock hlock)

/-- INTERNAL: **a step keeps the invariant.**
SOURCE: mmap/mod.rs:328-407, 1064-1068 -/
theorem Guarded.move (hg : Guarded options s) (hmove : Move options s h s') :
    Guarded options s' := by
  have hself (c : HandlePc) : Function.update s.pc h c h = c := Function.update_self _ _ _
  have hok := hg.handles h
  have hown := hg.own hmove
  cases hmove with
  | quiet c hlock hhold hasks hmapped =>
      refine hown hg.peaceful ?_
      rw [show (s.goto h c).pc h = c from hself c]
      refine ⟨?_, ?_, hasks, ?_⟩
      · intro op hmem
        obtain ⟨hkind, hold⟩ := hok.kind op hmem
        exact ⟨hkind, hhold hold⟩
      · intro hflock hlocking
        exact hok.kept hflock (hlock hflock hlocking)
      · rw [hmapped]
        exact hok.mapped
  | grant fd hp hadmits =>
      have hfree : LockTable.Free s.held h := hg.free (by rw [hp]; rfl)
      refine hown (hg.peaceful.acquire fits_symm hadmits) ?_
      show HandleOk options _ (s.mapped h) h (Function.update s.pc h _ h)
      rw [hself]
      refine ⟨?_, ?_, by rintro fd ⟨⟩, ?_⟩
      · intro op hmem
        rcases LockTable.mem_acquire.mp hmem with heq | hold
        · cases heq
          exact ⟨rfl, rfl⟩
        · exact absurd hold (hfree op)
      · intro _ _
        exact LockTable.mem_acquire.mpr (Or.inl rfl)
      · rw [hok.mapped, hp]
        rfl
  | map fd mapLen raw hp =>
      rw [hp] at hok
      refine hown hg.peaceful ?_
      show HandleOk options _ (Function.update s.mapped h true h) h (Function.update s.pc h _ h)
      rw [hself, Function.update_self]
      exact ⟨hok.kind, hok.kept, by rintro fd ⟨⟩, rfl⟩
  | unmap raw hp =>
      rw [hp] at hok
      refine hown hg.peaceful ?_
      show HandleOk options _ (Function.update s.mapped h false h) h (Function.update s.pc h _ h)
      rw [hself, Function.update_self]
      refine ⟨hok.kind, ?_, by rintro fd ⟨⟩, rfl⟩
      rintro - ⟨⟩
  | close error hp =>
      rw [hp] at hok
      refine hown (hg.peaceful.release h) ?_
      show HandleOk options _ (s.mapped h) h (Function.update s.pc h _ h)
      rw [hself, hok.mapped]
      have hfree (c : HandlePc) (op : FlockOp) (hmem : (h, op) ∈ LockTable.release s.held h) :
          op = (options h).flockOp ∧ mayHold c = true :=
        absurd hmem (LockTable.free_release s.held h op)
      cases error with
      | none => exact ⟨hfree _, by rintro - ⟨⟩, by rintro fd ⟨⟩, rfl⟩
      | some e => exact ⟨hfree _, by rintro - ⟨⟩, by rintro fd ⟨⟩, rfl⟩

/-- INTERNAL: **every step of every handle keeps the locks.** -/
theorem Guarded.step (a : η × LockAct) (s s' : Locking η) (hg : Guarded options s)
    (hstep : Locking.step options page a s = some s') : Guarded options s' :=
  hg.move (lock_move hstep)

/-! ## What the invariant says -/

omit [DecidableEq η] in
/-- INTERNAL: a writable mapping that holds its lock is alone.
SOURCE: mmap/mod.rs:336-347 -/
theorem Guarded.alone (hg : Guarded options s) {k : η} (hh : (options h).flock = true)
    (hk : (options k).flock = true) (hlock : locking (s.pc h) = true)
    (hlock' : locking (s.pc k) = true) (hwritable : (options h).writable = true) : k = h := by
  by_contra hne
  have hheld := (hg.handles h).kept hh hlock
  have hheld' := (hg.handles k).kept hk hlock'
  have hfits := hg.peaceful _ hheld _ hheld' (Ne.symm hne)
  unfold SafeMmapOptions.flockOp at hfits
  rw [hwritable, if_pos rfl] at hfits
  cases hfits

omit [DecidableEq η] in
/-- INTERNAL: readers only, or one writer. -/
theorem Guarded.exclusive (hg : Guarded options s) :
    (∀ h mmap, s.pc h = .live mmap → (options h).flock = true → (options h).writable = false) ∨
      ∃ h, ∀ k mmap, s.pc k = .live mmap → (options k).flock = true → k = h := by
  by_cases hwriter : ∃ h mmap, s.pc h = .live mmap ∧ (options h).flock = true ∧
      (options h).writable = true
  · obtain ⟨h, mmap, hlive, hflock, hwritable⟩ := hwriter
    refine Or.inr ⟨h, ?_⟩
    intro k mmap' hlive' hflock'
    exact hg.alone hflock hflock' (by rw [hlive]; rfl) (by rw [hlive']; rfl) hwritable
  · left
    intro h mmap hlive hflock
    rw [← Bool.not_eq_true]
    intro hwritable
    exact hwriter ⟨h, mmap, hlive, hflock, hwritable⟩

omit [DecidableEq η] in
/-- INTERNAL: a region is mapped only under its lock. -/
theorem Guarded.covered (hg : Guarded options s) (hflock : (options h).flock = true)
    (hmapped : s.mapped h = true) : (h, (options h).flockOp) ∈ s.held := by
  refine (hg.handles h).kept hflock ?_
  rw [(hg.handles h).mapped] at hmapped
  cases hpc : s.pc h with
  | register raw => rfl
  | live mmap => rfl
  | munmap raw => rfl
  | _ =>
      rw [hpc] at hmapped
      cases hmapped

/-- INTERNAL: the lock is there before the `mmap` and still there after the `munmap`.
SOURCE: mmap/mod.rs:110-118, 336-392, sys/mmap.rs:580-589 -/
theorem Guarded.around (hg : Guarded options s) {k : η} (hmove : Move options s h s')
    (hflock : (options k).flock = true) (hchanged : s'.mapped k ≠ s.mapped k) :
    (k, (options k).flockOp) ∈ s.held ∧ (k, (options k).flockOp) ∈ s'.held := by
  have hself : k = h := by
    by_contra hne
    exact hchanged (hmove.others hne).2
  subst hself
  cases hmove with
  | quiet c hlock hhold hasks hmapped => exact absurd rfl hchanged
  | grant fd hp hadmits => exact absurd rfl hchanged
  | close error hp => exact absurd rfl hchanged
  | map fd mapLen raw hp =>
      have hheld := (hg.handles k).kept hflock (by rw [hp]; rfl)
      exact ⟨hheld, hheld⟩
  | unmap raw hp =>
      have hheld := (hg.handles k).kept hflock (by rw [hp]; rfl)
      exact ⟨hheld, hheld⟩

/-- INTERNAL: the steps of one call change the locks of that call only. -/
theorem locks_alone {acts : List (η × LockAct)} (hacts : ∀ a ∈ acts, a.1 = h)
    (hrun : run (Locking.step options page) acts s = some s') :
    LockTable.release s'.held h = LockTable.release s.held h := by
  induction acts generalizing s with
  | nil =>
      cases hrun
      rfl
  | cons a acts ih =>
      obtain ⟨u, hu, hrest⟩ := (run_cons a acts).mp hrun
      have hown : a.1 = h := hacts a List.mem_cons_self
      have hfirst := (lock_move hu).locks
      rw [hown] at hfirst
      rw [ih (fun b hb => hacts b (List.mem_cons_of_mem a hb)) hrest, hfirst]

/-- RESULT: **advisory locks exclude readers and writers for the lifetime of a mapping.** For
every interleaving of opens and drops on one file, at every moment of it: the live mappings
opened with `flock(true)` are all read-only or a single one; every region that is mapped, the
live ones among them, is mapped under its lock, which is held already before the `mmap` and
still after the `munmap`. A call that has failed and a mapping that has been dropped hold
nothing, no step touches the lock of another call, and an open that fails, with no other call
in between, leaves the held locks as they were.
SOURCE: mmap/mod.rs:110-118, 328-407, 1064-1068, sys/mmap.rs:580-589 -/
theorem locks_exclude (options : η → SafeMmapOptions) (page : Usize)
    (acts : List (η × LockAct)) (s : Locking η)
    (hrun : run (Locking.step options page) acts (Locking.init η) = some s) :
    ((∀ h mmap, s.pc h = .live mmap → (options h).flock = true → (options h).writable = false) ∨
      ∃ h, ∀ k mmap, s.pc k = .live mmap → (options k).flock = true → k = h) ∧
    (∀ h mmap, s.pc h = .live mmap → s.mapped h = true) ∧
    (∀ h, (options h).flock = true → s.mapped h = true → (h, (options h).flockOp) ∈ s.held) ∧
    (∀ a s', Locking.step options page a s = some s' → ∀ h, (options h).flock = true →
      s'.mapped h ≠ s.mapped h →
        (h, (options h).flockOp) ∈ s.held ∧ (h, (options h).flockOp) ∈ s'.held) ∧
    (∀ h, isOver (s.pc h) = true → LockTable.Free s.held h) ∧
    (∀ a s', Locking.step options page a s = some s' →
      LockTable.release s'.held a.1 = LockTable.release s.held a.1) ∧
    (∀ h more s' error, s.pc h = .unborn → (∀ a ∈ more, a.1 = h) →
      run (Locking.step options page) more s = some s' → s'.pc h = .failed error →
        s'.held = s.held) := by
  have hg : Guarded options s :=
    reach_invariant (Guarded options) Guarded.step acts (guarded_init options) hrun
  refine ⟨hg.exclusive, ?_, ?_, ?_, ?_, ?_, ?_⟩
  · intro h mmap hlive
    rw [(hg.handles h).mapped, hlive]
    rfl
  · intro h hflock hmapped
    exact hg.covered hflock hmapped
  · intro a s' hstep h hflock hchanged
    exact hg.around (lock_move hstep) hflock hchanged
  · intro h hover
    apply hg.free
    cases hpc : s.pc h with
    | failed error => rfl
    | dropped => rfl
    | _ =>
        rw [hpc] at hover
        cases hover
  · intro a s' hstep
    exact (lock_move hstep).locks
  · intro h more s' error hunborn hmore hrun' hfailed
    have hg' : Guarded options s' := reach_invariant (Guarded options) Guarded.step more hg hrun'
    have hbefore : LockTable.Free s.held h := hg.free (by rw [hunborn]; rfl)
    have hafter : LockTable.Free s'.held h := hg'.free (by rw [hfailed]; rfl)
    calc s'.held = LockTable.release s'.held h := hafter.release_eq.symm
      _ = LockTable.release s.held h := locks_alone hmore hrun'
      _ = s.held := hbefore.release_eq

/-- Three opens of one file: a reader, a writer, and a reader whose window is empty. -/
def threeOpens : Fin 3 → SafeMmapOptions
  | 0 => { SafeMmapOptions.new with flock := true }
  | 1 => { SafeMmapOptions.new with flock := true, writable := true }
  | 2 => { SafeMmapOptions.new with flock := true, offset := 8192 }

/-- The steps of a call whose system calls all succeed, up to the `mmap`. -/
def opens (h : Fin 3) (ptr : Usize) : List (Fin 3 × LockAct) :=
  [(h, .call), (h, .openFile (.ok 3)), (h, .flock (.ok ())), (h, .metadata (.ok 4096)),
    (h, .map (.ok ptr)), (h, .register)]

/-- The third open takes its lock and fails with `OffsetBeyondFile`. -/
def beyond : List (Fin 3 × LockAct) :=
  [(2, .call), (2, .openFile (.ok 4)), (2, .flock (.ok ())), (2, .metadata (.ok 4096)), (2, .close)]

/-- The run of `threeOpens` in which the reader is live and the third open fails after it has
taken the lock: the locks are as they were. -/
theorem locks_exclude_threeOpens :
    ∃ s s', run (Locking.step threeOpens 4096) (opens 0 0x10000) (Locking.init (Fin 3)) = some s ∧
      run (Locking.step threeOpens 4096) beyond s = some s' ∧
      s'.pc 2 = .failed (.offsetBeyondFile 8192 4096) ∧ s'.held = s.held ∧
      (0, FlockOp.lockSh) ∈ s.held := by
  refine ⟨_, _, rfl, rfl, rfl, ?_, ?_⟩
  · obtain ⟨-, -, -, -, -, -, hfailed⟩ := locks_exclude threeOpens 4096 (opens 0 0x10000) _ rfl
    exact hfailed 2 beyond _ _ rfl (by decide) rfl rfl
  · obtain ⟨-, -, hcovered, -⟩ := locks_exclude threeOpens 4096 (opens 0 0x10000) _ rfl
    exact hcovered 0 rfl rfl

/-- The writer is refused while the reader is live: `flock(2)` has no grant for it. -/
example : (run (Locking.step threeOpens 4096) (opens 0 0x10000 ++ opens 1 0x20000)
    (Locking.init (Fin 3))).isNone = true := rfl

/-! ## The steps and the call -/

section Outcome

variable {kernels : η → Kernel} {kernel : Kernel} {self : SafeMmapOptions} {fd : ℤ}

/-- The operating system answers each call as its kernel says. -/
def AnsweredBy (options : η → SafeMmapOptions) (kernels : η → Kernel) (a : η × LockAct)
    (s : Locking η) : Prop :=
  match a.2, s.pc a.1 with
  | .openFile answer, .openFile => answer = (kernels a.1).openFile (options a.1).writable
  | .flock answer, .flock fd => answer = (kernels a.1).flock fd (options a.1).flockOp
  | .metadata answer, .metadata fd => answer = (kernels a.1).metadata fd
  | .map answer, .map fd mapLen =>
    answer = (kernels a.1).mmap ((options a.1).mmapOptions mapLen fd).call
  | _, _ => True

/-- `open` after the lock.
SOURCE: mmap/mod.rs:349-392 -/
def afterLock (self : SafeMmapOptions) (page : Usize) (kernel : Kernel) (fd : ℤ) :
    Except MmapError RawMmap := do
  let fileLen ← (kernel.metadata fd).mapError .io
  let mapLen ← self.mapLen fileLen
  ((self.mmapOptions mapLen fd).map page kernel.mmap).mapError .io

/-- INTERNAL: an open that cannot open the file.
SOURCE: mmap/mod.rs:331-334 -/
theorem openRaw_unopened {e : IoError} (hfile : kernel.openFile self.writable = .error e) :
    self.openRaw page kernel = .error (.io e) := by
  unfold SafeMmapOptions.openRaw
  rw [hfile]
  rfl

/-- INTERNAL: an open that does not get the lock.
SOURCE: mmap/mod.rs:343-346 -/
theorem openRaw_refused {e : IoError} (hfile : kernel.openFile self.writable = .ok fd)
    (hflock : self.flock = true) (hlock : kernel.flock fd self.flockOp = .error e) :
    self.openRaw page kernel = .error (.io e) := by
  unfold SafeMmapOptions.flockOp at hlock
  unfold SafeMmapOptions.openRaw
  rw [hfile, hflock]
  show ((kernel.flock fd (if self.writable then .lockEx else .lockSh)).mapError MmapError.io >>=
    fun _ => afterLock self page kernel fd) = _
  rw [hlock]
  rfl

/-- INTERNAL: an open that has the file and its lock goes on behind them.
SOURCE: mmap/mod.rs:349-392 -/
theorem openRaw_locked (hfile : kernel.openFile self.writable = .ok fd)
    (hlock : self.flock = true → kernel.flock fd self.flockOp = .ok ()) :
    self.openRaw page kernel = afterLock self page kernel fd := by
  unfold SafeMmapOptions.flockOp at hlock
  unfold SafeMmapOptions.openRaw
  rw [hfile]
  cases hflock : self.flock with
  | false => rfl
  | true =>
      show ((kernel.flock fd (if self.writable then .lockEx else .lockSh)).mapError MmapError.io
        >>= fun _ => afterLock self page kernel fd) = _
      rw [hlock hflock]
      rfl

/-- What a call at the point `c` has found out about the kernel. -/
def Follows (self : SafeMmapOptions) (page : Usize) (kernel : Kernel) : HandlePc → Prop
  | .unborn | .openFile => True
  | .flock fd => kernel.openFile self.writable = .ok fd ∧ self.flock = true
  | .metadata fd => self.openRaw page kernel = afterLock self page kernel fd
  | .map fd mapLen => self.openRaw page kernel =
    ((self.mmapOptions mapLen fd).map page kernel.mmap).mapError .io
  | .register raw | .munmap raw => self.openRaw page kernel = .ok raw
  | .live mmap => self.open page kernel = .ok mmap
  | .close (some error) | .failed error => self.openRaw page kernel = .error error
  | .close none | .dropped => ∃ raw, self.openRaw page kernel = .ok raw

/-- INTERNAL: the length of the file decides how the call goes on.
SOURCE: mmap/mod.rs:349-368 -/
theorem follows_metadata {c : HandlePc} {answer : Except IoError UInt64}
    (hat : Follows self page kernel (.metadata fd)) (hanswer : answer = kernel.metadata fd)
    (hpc : (Locking.metadataStep self s h fd answer).pc h = c) : Follows self page kernel c := by
  have hself (d : HandlePc) : (s.goto h d).pc h = d := Function.update_self _ _ _
  have hopen : self.openRaw page kernel = afterLock self page kernel fd := hat
  unfold afterLock at hopen
  rw [← hanswer] at hopen
  unfold Locking.metadataStep at hpc
  cases answer with
  | error e =>
      dsimp only at hpc
      rw [← hpc, hself]
      exact hopen
  | ok fileLen =>
      dsimp only at hpc
      change self.openRaw page kernel = (self.mapLen fileLen >>= fun mapLen =>
        ((self.mmapOptions mapLen fd).map page kernel.mmap).mapError MmapError.io) at hopen
      cases hlen : self.mapLen fileLen with
      | error e =>
          rw [hlen] at hpc hopen
          rw [← hpc, hself]
          exact hopen
      | ok mapLen =>
          rw [hlen] at hpc hopen
          rw [← hpc, hself]
          exact hopen

/-- INTERNAL: and so does `MmapOptions::map`.
SOURCE: mmap/mod.rs:392, sys/mmap.rs:227-286 -/
theorem follows_map {c : HandlePc} {mapLen : Usize} {answer : Except IoError Usize}
    (hat : Follows self page kernel (.map fd mapLen))
    (hanswer : answer = kernel.mmap (self.mmapOptions mapLen fd).call)
    (hpc : (Locking.mapStep self page s h fd mapLen answer).pc h = c) :
    Follows self page kernel c := by
  have hself (d : HandlePc) : Function.update s.pc h d h = d := Function.update_self _ _ _
  have hopen : self.openRaw page kernel =
      ((self.mmapOptions mapLen fd).map page kernel.mmap).mapError .io := hat
  have hmap : (self.mmapOptions mapLen fd).map page (fun _ => answer) =
      (self.mmapOptions mapLen fd).map page kernel.mmap := by
    rw [hanswer]
    rfl
  unfold Locking.mapStep at hpc
  rw [hmap] at hpc
  cases hraw : (self.mmapOptions mapLen fd).map page kernel.mmap with
  | error e =>
      rw [hraw] at hpc hopen
      rw [← hpc, show (s.goto h _).pc h = _ from hself _]
      exact hopen
  | ok raw =>
      rw [hraw] at hpc hopen
      dsimp only at hpc
      rw [← hpc, show (s.goto h _).pc h = _ from hself _]
      exact hopen

/-- INTERNAL: **a step of a call is a step of `openRaw`.**
SOURCE: mmap/mod.rs:328-407, 1064-1068 -/
theorem follows_own {act : LockAct} (hanswer : AnsweredBy options kernels (h, act) s)
    (hat : Follows (options h) page (kernels h) (s.pc h))
    (hstep : Locking.step options page (h, act) s = some s') :
    Follows (options h) page (kernels h) (s'.pc h) := by
  have hself (c : HandlePc) : (s.goto h c).pc h = c := Function.update_self _ _ _
  unfold AnsweredBy at hanswer
  unfold Locking.step at hstep
  dsimp only at hstep hanswer
  split at hstep
  · cases hstep
    rw [hself]
    trivial
  · rename_i e hp
    rw [hp] at hanswer
    cases hstep
    rw [hself]
    exact openRaw_unopened hanswer.symm
  · rename_i fd hp
    rw [hp] at hanswer
    cases hstep
    rw [hself]
    cases hflock : (options h).flock with
    | true => exact ⟨hanswer.symm, hflock⟩
    | false =>
        refine openRaw_locked hanswer.symm ?_
        intro hlock
        rw [hflock] at hlock
        cases hlock
  · rename_i answer fd hp
    rw [hp] at hanswer hat
    unfold Locking.flockStep at hstep
    split at hstep
    · cases hstep
      rw [hself]
      exact openRaw_refused hat.1 hat.2 hanswer.symm
    · split at hstep
      · cases hstep
        show Follows _ _ _ ((s.goto h _).pc h)
        rw [hself]
        exact openRaw_locked hat.1 fun _ => hanswer.symm
      · cases hstep
  · rename_i answer fd hp
    rw [hp] at hanswer hat
    cases hstep
    exact follows_metadata hat hanswer rfl
  · rename_i answer fd mapLen hp
    rw [hp] at hanswer hat
    cases hstep
    exact follows_map hat hanswer rfl
  · rename_i raw hp
    rw [hp] at hat
    cases hstep
    rw [hself]
    have hopen : (options h).openRaw page (kernels h) = .ok raw := hat
    show (options h).open page (kernels h) = _
    rw [SafeMmapOptions.open, hopen]
    rfl
  · rename_i mmap hp
    rw [hp] at hat
    cases hstep
    rw [hself]
    have hopen : ((options h).openRaw page (kernels h)).map (options h).finish = .ok mmap := hat
    show (options h).openRaw page (kernels h) = .ok mmap.raw
    cases hraw : (options h).openRaw page (kernels h) with
    | error e =>
        rw [hraw] at hopen
        cases hopen
    | ok raw =>
        rw [hraw] at hopen
        cases hopen
        rfl
  · rename_i raw hp
    rw [hp] at hat
    cases hstep
    show Follows _ _ _ ((s.goto h _).pc h)
    rw [hself]
    exact ⟨raw, hat⟩
  · rename_i error hp
    rw [hp] at hat
    cases hstep
    show Follows _ _ _ ((s.goto h _).pc h)
    rw [hself]
    cases error with
    | none => exact hat
    | some e => exact hat
  · cases hstep

/-- RESULT: **the steps of a call come to what `openRaw` returns.** In every run whose system
calls are answered by a kernel for each call, a mapping is live only as the value of `open`, and
a call that has failed returned the error of `openRaw`.
SOURCE: mmap/mod.rs:328-407 -/
theorem open_outcome (options : η → SafeMmapOptions) (page : Usize) (kernels : η → Kernel)
    (acts : List (η × LockAct)) (s : Locking η)
    (hrun : run (Locking.step options page) acts (Locking.init η) = some s)
    (hanswers : Along (Locking.step options page) (AnsweredBy options kernels) acts
      (Locking.init η)) (h : η) :
    (∀ mmap, s.pc h = .live mmap → (options h).open page (kernels h) = .ok mmap) ∧
      ∀ error, s.pc h = .failed error → (options h).openRaw page (kernels h) = .error error := by
  have hinit (k : η) : Follows (options k) page (kernels k) ((Locking.init η).pc k) := trivial
  have hfollows := run_invariant
    (fun s : Locking η => ∀ h, Follows (options h) page (kernels h) (s.pc h)) ?_ acts hinit
    hanswers hrun h
  · refine ⟨?_, ?_⟩
    · intro mmap hlive
      rw [hlive] at hfollows
      exact hfollows
    · intro error hfailed
      rw [hfailed] at hfollows
      exact hfollows
  · rintro ⟨k, act⟩ u u' hanswer hold hstep h
    by_cases hk : h = k
    · rw [hk]
      exact follows_own hanswer (hold k) hstep
    · rw [((lock_move hstep).others hk).1]
      exact hold h

/-- A kernel that grants everything, with a file of one page. -/
def granting : Kernel where
  openFile := fun _ => .ok 3
  flock := fun _ _ => .ok ()
  metadata := fun _ => .ok 4096
  mmap := fun _ => .ok 0x10000

/-- The steps of the reader of `threeOpens` are answered so, and it comes to its mapping. -/
theorem open_outcome_reader :
    ∃ s, run (Locking.step threeOpens 4096) (opens 0 0x10000) (Locking.init (Fin 3)) = some s ∧
      s.pc 0 = .live ((threeOpens 0).finish ⟨0x10000, 4096, false⟩) ∧
      (threeOpens 0).open 4096 granting =
        .ok ((threeOpens 0).finish ⟨0x10000, 4096, false⟩) := by
  have hanswers : Along (Locking.step threeOpens 4096) (AnsweredBy threeOpens fun _ => granting)
      (opens 0 0x10000) (Locking.init (Fin 3)) := by
    refine along_cons trivial rfl (along_cons rfl rfl (along_cons rfl rfl (along_cons rfl rfl
      (along_cons rfl rfl (along_cons trivial rfl trivial)))))
  refine ⟨_, rfl, rfl, ?_⟩
  exact (open_outcome threeOpens 4096 (fun _ => granting) (opens 0 0x10000) _ rfl hanswers 0).1
    _ rfl

end Outcome

end MmapShield.Analysis.Locks
