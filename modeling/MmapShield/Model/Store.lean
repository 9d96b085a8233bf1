import MmapShield.Computation.Overlay
import MmapShield.Model.Access
import MmapShield.Model.Advice

/-!
# The bytes behind one mapping

A mapping of a file that nobody else writes, with the operations that read it, write it and
hand ranges of it to the kernel. `pages` holds the bytes by address: those of the file, and the
private copies of pages that a private mapping has written. No touch faults here.

`MADV_DONTNEED` discards the private copies of the pages in its range, so that the next access
reads the file again; a shared mapping has no copies. A call that fails may have discarded the
copies of any of these pages before it failed. The other hints and `msync` change no byte.

`writes` is for the analysis only, no step reads it.
-/

set_option autoImplicit false

namespace MmapShield.Model

open MmapShield.Computation

/-- The mapping, whether it is shared, its bytes, and the successful writes with the latest
first. -/
structure Store where
  mmap : SafeMmap
  shared : Bool
  pages : Overlay UInt8
  writes : List (ℕ × List UInt8)

/-- One operation; a read has a closure of the caller, `buf` gives the length of a buffer, and
`kernel` is what the kernel answers this time. -/
inductive StoreAct (ρ : Type)
  | write (offset : Usize) (data : Slice)
  | read (start stop : Usize) (f : Closure ρ)
  | readInto (offset : Usize) (buf : Slice)
  | evict (kernel : PageKernel) (offset len : Usize)
  | prefetch (kernel : PageKernel) (offset len : Usize)
  | adviseRange (kernel : PageKernel) (advice : Advice) (offset len : Usize)
  | flush (kernel : PageKernel) (offset len : Usize) (asyncFlush : Bool)

/-- The page starts in the range of a system call. -/
def inCall (page ptr len : Usize) (p : ℕ) : Bool :=
  decide (ptr.toNat ≤ p * page.toNat ∧ p * page.toNat < ptr.toNat + len.toNat)

/-- What a system call does to the bytes, whether it succeeds or fails. -/
def RangeCall.effect (page : Usize) (kernel : PageKernel) (pages : Overlay UInt8) :
    RangeCall → Overlay UInt8
  | .madvise ptr len .dontNeed => pages.discard fun p =>
    inCall page ptr len p && kernel.reaches (.madvise ptr len .dontNeed) p
  | _ => pages

namespace Store

/-- The mapping that `open` returned for the region `raw`, of a file with the bytes `file` from
the offset of the mapping on.
SOURCE: mmap/mod.rs:370-407 -/
def start (options : SafeMmapOptions) (raw : RawMmap) (file : ℕ → UInt8) : Store where
  mmap := options.finish raw
  shared := options.shared
  pages := .plain fun addr => file (addr - raw.ptr.toNat)
  writes := []

/-- The memory that an access meets. -/
def memory (page : Usize) (s : Store) : Memory where
  bytes := fun addr => s.pages.peek page.toNat addr.toNat
  faults := fun _ _ => false

/-- The bytes are copied one after the other.
SOURCE: mmap/mod.rs:556-585 -/
def write (page : Usize) (s : Store) (offset : Usize) (data : Slice) : Store :=
  let o := s.mmap.write (s.memory page) offset data
  match o.result with
  | .error _ => { s with mmap := o.mmap }
  | .ok () =>
    { s with
      mmap := o.mmap
      pages := Overlay.pokeAll page.toNat s.shared (s.mmap.raw.ptr + offset).toNat data.bytes
        s.pages
      writes := (offset.toNat, data.bytes) :: s.writes }

/-- What a read returns.
SOURCE: mmap/mod.rs:503-518 -/
def read {ρ : Type} (page : Usize) (s : Store) (start stop : Usize) (f : Closure ρ) :
    Except AccessError ρ :=
  (s.mmap.read (s.memory page) start stop f).result

/-- What the buffer of `read_into` holds after a successful call.
SOURCE: mmap/mod.rs:815-839 -/
def readInto (page : Usize) (s : Store) (offset : Usize) (buf : Slice) :
    Except AccessError (List UInt8) :=
  (s.mmap.readInto (s.memory page) offset buf).result.map fun _ =>
    (s.memory page).slice (s.mmap.raw.ptr + offset) buf.len

/-- The system calls of an operation that returned. -/
def issue (page : Usize) (kernel : PageKernel) (s : Store) (o : RangeOutcome Unit) : Store :=
  { s with pages := o.calls.foldl (RangeCall.effect page kernel) s.pages }

/-- One operation; those that read leave the bytes and the mapping alone.
SOURCE: mmap/mod.rs:503-585, 601-603, 646-648, 709-711, 733-735, 815-839 -/
def step {ρ : Type} (page : Usize) (act : StoreAct ρ) (s : Store) : Option Store :=
  match act with
  | .write offset data => some (s.write page offset data)
  | .read start stop f => some { s with mmap := (s.mmap.read (s.memory page) start stop f).mmap }
  | .readInto offset buf =>
    some { s with mmap := (s.mmap.readInto (s.memory page) offset buf).mmap }
  | .evict kernel offset len =>
    some (s.issue page kernel (s.mmap.evict page kernel.toRangeKernel offset len))
  | .prefetch kernel offset len =>
    some (s.issue page kernel (s.mmap.prefetch page kernel.toRangeKernel offset len))
  | .adviseRange kernel advice offset len =>
    some (s.issue page kernel (s.mmap.adviseRange page kernel.toRangeKernel advice offset len))
  | .flush kernel offset len asyncFlush =>
    some (s.issue page kernel (s.mmap.flush page kernel.toRangeKernel offset len asyncFlush))

end Store

end MmapShield.Model
