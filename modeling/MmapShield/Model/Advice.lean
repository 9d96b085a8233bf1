import MmapShield.Computation.Words
import MmapShield.Model.Open

/-!
# Hints, flushes and queries on a byte range

The operations of `sys/mmap.rs` and `mmap/mod.rs` that hand a range of the mapping to the
kernel: `madvise(2)`, `msync(2)`, `mincore(2)`, `mlock(2)` and `munlock(2)`. The first
three round the range out to whole pages, with the mask `!(page - 1)`. Each operation
returns its result with the system calls it made, so that a refused one has made none.
-/

set_option autoImplicit false

namespace MmapShield.Model

open MmapShield.Computation

/-- SOURCE: sys/advice.rs:26-55 -/
inductive Advice
  | normal
  | sequential
  | random
  | willNeed
  | dontNeed
  deriving DecidableEq, Repr

/-- A system call on a range of addresses; `vec` is the length of the vector that
`mincore(2)` is given.
SOURCE: sys/mmap.rs:450, 491, 541, mmap/mod.rs:920, 947 -/
inductive RangeCall
  | madvise (ptr len : Usize) (advice : Advice)
  | msync (ptr len : Usize) (asyncFlush : Bool)
  | mincore (ptr len : Usize) (vec : ℕ)
  | mlock (ptr len : Usize)
  | munlock (ptr len : Usize)
  deriving DecidableEq, Repr

/-- The kernel's side: the number of the error that a call fails with, and the status byte
of the page at an address. -/
structure RangeKernel where
  errno : RangeCall → Option ℕ
  status : Usize → UInt8

/-- The kernel's side of a call that works on pages one after the other: one that fails has been
carried out for some pages of its range before, and `done` are those. -/
structure PageKernel extends RangeKernel where
  done : RangeCall → ℕ → Bool

/-- The call has been carried out for the page, if that is in its range. -/
def PageKernel.reaches (kernel : PageKernel) (call : RangeCall) (p : ℕ) : Bool :=
  (kernel.errno call).isNone || kernel.done call p

/-- The status bytes that `mincore(2)` writes, one for each page of the range. -/
def RangeKernel.statuses (kernel : RangeKernel) (page ptr len : Usize) : List UInt8 :=
  (List.range ((len.toNat + page.toNat - 1) / page.toNat)).map fun i =>
    kernel.status (ptr + page * UInt64.ofNat i)

/-- What an operation returned, and the system calls it made. -/
structure RangeOutcome (ρ : Type) where
  result : Except IoError ρ
  calls : List RangeCall

/-- SOURCE: sys/mmap.rs:445, 484, 532 -/
def alignedOffset (page offset : Usize) : Usize := offset &&& ~~~(page - 1)

/-- SOURCE: sys/mmap.rs:446, 485 -/
def alignedLen (page offset len : Usize) : Usize :=
  (len + (offset - alignedOffset page offset) + page - 1) &&& ~~~(page - 1)

/-- SOURCE: sys/mmap.rs:533 -/
def alignedEnd (page offset len : Usize) : Usize := (offset + len + page - 1) &&& ~~~(page - 1)

namespace RawMmap

/-- The check that every one of these operations begins with.
SOURCE: sys/mmap.rs:437, 476, 524, mmap/mod.rs:908-911, 936-939 -/
def exceeds (self : RawMmap) (offset len : Usize) : Bool :=
  (checkedAdd offset len).elim true fun stop => decide (stop > self.len)

/-- An operation that checks its range and makes one system call. -/
def rangeCall (self : RawMmap) (kernel : RangeKernel) (message : String) (offset len : Usize)
    (call : RangeCall) : RangeOutcome Unit :=
  if self.exceeds offset len then ⟨.error (.new .invalidInput message), []⟩
  else
    match kernel.errno call with
    | some errno => ⟨.error (.lastOsError errno), [call]⟩
    | none => ⟨.ok (), [call]⟩

/-- INTERNAL: **the check is the comparison of the unbounded sum.**
SOURCE: sys/mmap.rs:437, mmap/mod.rs:1022-1037 -/
theorem exceeds_eq (self : RawMmap) (offset len : Usize) :
    self.exceeds offset len = decide (self.len.toNat < offset.toNat + len.toNat) := by
  unfold exceeds checkedAdd
  by_cases hfits : offset.toNat + len.toNat < 2 ^ 64
  · rw [if_pos hfits, Option.elim_some]
    apply decide_eq_decide.mpr
    rw [gt_iff_lt, UInt64.lt_iff_toNat_lt, toNat_add_of_fits hfits]
  · have hlen := UInt64.toNat_lt self.len
    rw [if_neg hfits, Option.elim_none]
    symm
    rw [decide_eq_true_iff]
    omega

/-- INTERNAL: the check passes exactly for the ranges inside. -/
theorem exceeds_eq_false_iff {self : RawMmap} {offset len : Usize} :
    self.exceeds offset len = false ↔ offset.toNat + len.toNat ≤ self.len.toNat := by
  rw [exceeds_eq, decide_eq_false_iff_not, Nat.not_lt]

/-- INTERNAL: the check refuses exactly the ranges that go over the end. -/
theorem exceeds_eq_true_iff {self : RawMmap} {offset len : Usize} :
    self.exceeds offset len = true ↔ self.len.toNat < offset.toNat + len.toNat := by
  rw [exceeds_eq, decide_eq_true_iff]

/-- INTERNAL: a byte before a position of the mapping is inside. -/
theorem exceeds_one {self : RawMmap} {pos stop : Usize} (hlt : pos < stop)
    (hstop : stop ≤ self.len) : self.exceeds pos 1 = false := by
  rw [UInt64.lt_iff_toNat_lt] at hlt
  rw [UInt64.le_iff_toNat_le] at hstop
  rw [exceeds_eq_false_iff, show (1 : Usize).toNat = 1 from rfl]
  omega

/-- INTERNAL: a range inside the mapping makes its system call.
SOURCE: sys/mmap.rs:436-462 -/
theorem rangeCall_calls {self : RawMmap} {offset len : Usize}
    (hin : self.exceeds offset len = false) (kernel : RangeKernel) (message : String)
    (call : RangeCall) : (self.rangeCall kernel message offset len call).calls = [call] := by
  unfold rangeCall
  rw [hin, if_neg Bool.false_ne_true]
  cases kernel.errno call <;> rfl

/-- SOURCE: sys/mmap.rs:436-462 -/
def adviseRange (self : RawMmap) (page : Usize) (kernel : RangeKernel) (advice : Advice)
    (offset len : Usize) : RangeOutcome Unit :=
  self.rangeCall kernel "advise range exceeds mapping length" offset len
    (.madvise (self.ptr + alignedOffset page offset) (alignedLen page offset len) advice)

/-- SOURCE: sys/mmap.rs:423-425 -/
def advise (self : RawMmap) (page : Usize) (kernel : RangeKernel) (advice : Advice) :
    RangeOutcome Unit :=
  self.adviseRange page kernel advice 0 self.len

/-- SOURCE: sys/mmap.rs:475-500 -/
def flush (self : RawMmap) (page : Usize) (kernel : RangeKernel) (offset len : Usize)
    (asyncFlush : Bool) : RangeOutcome Unit :=
  self.rangeCall kernel "flush range exceeds mapping length" offset len
    (.msync (self.ptr + alignedOffset page offset) (alignedLen page offset len) asyncFlush)

/-- The length of the range that `mincore` asks about, from the end rounded up.
SOURCE: sys/mmap.rs:532-534 -/
def mincoreLen (page offset len : Usize) : Usize :=
  alignedEnd page offset len - alignedOffset page offset

/-- The kernel writes from the start of the vector on; a vector that is longer afterwards
has been overrun.
SOURCE: sys/mmap.rs:523-553 -/
def mincore (self : RawMmap) (page : Usize) (kernel : RangeKernel) (offset len : Usize) :
    RangeOutcome (List Bool) :=
  if self.exceeds offset len then
    ⟨.error (.new .invalidInput "mincore range exceeds mapping length"), []⟩
  else
    let numPages := (mincoreLen page offset len / page).toNat
    let vec : List UInt8 := List.replicate numPages 0
    let alignedPtr := self.ptr + alignedOffset page offset
    let call := .mincore alignedPtr (mincoreLen page offset len) numPages
    match kernel.errno call with
    | some errno => ⟨.error (.lastOsError errno), [call]⟩
    | none =>
      let written := kernel.statuses page alignedPtr (mincoreLen page offset len)
      ⟨.ok ((written ++ vec.drop written.length).map fun b => b &&& 1 != 0), [call]⟩

end RawMmap

namespace SafeMmap

/-- SOURCE: mmap/mod.rs:646-648 -/
def adviseRange (self : SafeMmap) (page : Usize) (kernel : RangeKernel) (advice : Advice)
    (offset len : Usize) : RangeOutcome Unit :=
  self.raw.adviseRange page kernel advice offset len

/-- SOURCE: mmap/mod.rs:709-711 -/
def evict (self : SafeMmap) (page : Usize) (kernel : RangeKernel) (offset len : Usize) :
    RangeOutcome Unit :=
  self.raw.adviseRange page kernel .dontNeed offset len

/-- SOURCE: mmap/mod.rs:733-735 -/
def prefetch (self : SafeMmap) (page : Usize) (kernel : RangeKernel) (offset len : Usize) :
    RangeOutcome Unit :=
  self.raw.adviseRange page kernel .willNeed offset len

/-- SOURCE: mmap/mod.rs:601-603 -/
def flush (self : SafeMmap) (page : Usize) (kernel : RangeKernel) (offset len : Usize)
    (asyncFlush : Bool) : RangeOutcome Unit :=
  self.raw.flush page kernel offset len asyncFlush

/-- SOURCE: mmap/mod.rs:869-871 -/
def residentPages (self : SafeMmap) (page : Usize) (kernel : RangeKernel)
    (offset len : Usize) : RangeOutcome (List Bool) :=
  self.raw.mincore page kernel offset len

/-- SOURCE: mmap/mod.rs:908-927 -/
def lockRange (self : SafeMmap) (kernel : RangeKernel) (offset len : Usize) : RangeOutcome Unit :=
  self.raw.rangeCall kernel "lock range exceeds mapping length" offset len
    (.mlock (self.raw.ptr + offset) len)

/-- SOURCE: mmap/mod.rs:935-954 -/
def unlockRange (self : SafeMmap) (kernel : RangeKernel) (offset len : Usize) :
    RangeOutcome Unit :=
  self.raw.rangeCall kernel "unlock range exceeds mapping length" offset len
    (.munlock (self.raw.ptr + offset) len)

end SafeMmap

end MmapShield.Model
