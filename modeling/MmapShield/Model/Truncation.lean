import MmapShield.Computation.Pages
import MmapShield.Model.Fallback

/-!
# A file that changes while it is open

Other processes truncate a file, extend it and write to it, while one thread reads it through a
mapping. `FileState` is what the file holds at one moment; an access meets the file as it is then.
The kernel does what `mmap(2)` documents and Linux does for pages that were not written through
the mapping: a page shows what the file holds now, the rest of its last page reads as zeros, and a
touch of a page that starts at or after the end of the file raises SIGBUS. `pread(2)` transfers
what is there, and nothing from the end of the file on.

`faults` is for the analysis only, no step reads it.
-/

set_option autoImplicit false

namespace MmapShield.Model

open MmapShield.Computation

/-- What a file holds at some moment; it may be empty. No file is longer than an `off_t` can
say. -/
structure FileState where
  bytes : List UInt8
  small : bytes.length < 2 ^ 63

namespace FileState

/-- The file has a page for the byte at `pos`. -/
def backs (page : Usize) (file : FileState) (pos : ℕ) : Bool :=
  decide (roundDown page.toNat pos < file.bytes.length)

/-- The memory behind a mapping at `ptr` of the file from `offset` on. -/
def memory (page ptr : Usize) (offset : UInt64) (file : FileState) : Memory where
  bytes := fun addr => file.bytes.getD (offset.toNat + (addr - ptr).toNat) 0
  faults := fun _ addr => !file.backs page (offset.toNat + (addr - ptr).toNat)

/-- `pread(2)` on the file: a negative offset is invalid, and the `n`-th call transfers at
most `short n` bytes, but at least one if there is one. -/
def pread (file : FileState) (short : ℕ → ℕ) : Pread := fun n _ count offset =>
  if offset.toInt < 0 then .error (.lastOsError 22)
  else .ok ((file.bytes.drop offset.toInt.toNat).take (min count.toNat (max 1 (short n))))

end FileState

/-- The mapping, the file behind it, and the number of accesses since the last reset that ended
with a SIGBUS. -/
structure Watched where
  mmap : SafeMmap
  file : FileState
  faults : ℕ

/-- The file changes, or the thread does something to the mapping; `buf` gives the length of a
buffer. -/
inductive WatchedAct (ρ : Type)
  | change (file : FileState)
  | read (start stop : Usize) (f : Closure ρ)
  | readInto (offset : Usize) (buf : Slice)
  | probe (offset len : Usize)
  | resetPoison

/-- The access ended with a SIGBUS. -/
def endsInSigbus {ρ : Type} : Except AccessError ρ → Bool
  | .error (.sigbus _) => true
  | _ => false

namespace Watched

/-- The mapping that `open` returned for the region `raw`.
SOURCE: mmap/mod.rs:397-405 -/
def start (options : SafeMmapOptions) (raw : RawMmap) (file : FileState) : Watched :=
  ⟨options.finish raw, file, 0⟩

/-- The memory that an access meets. -/
def memory (page : Usize) (offset : UInt64) (s : Watched) : Memory :=
  s.file.memory page s.mmap.raw.ptr offset

/-- The state after an access. -/
def after {ρ : Type} (s : Watched) (o : Outcome ρ) : Watched :=
  { s with mmap := o.mmap, faults := if endsInSigbus o.result then s.faults + 1 else s.faults }

/-- One operation on a mapping of the file from `offset` on. A loop of `probe` needs fewer rounds
than its range has bytes, and one.
SOURCE: mmap/mod.rs:503-518, 668-686, 815-839, 1008-1011 -/
def step {ρ : Type} (page : Usize) (offset : UInt64) (act : WatchedAct ρ) (s : Watched) :
    Option Watched :=
  match act with
  | .change file => some { s with file := file }
  | .read start stop f => some (s.after (s.mmap.read (s.memory page offset) start stop f))
  | .readInto first buf => some (s.after (s.mmap.readInto (s.memory page offset) first buf))
  | .probe first len =>
    (s.mmap.probe page (s.memory page offset) (len.toNat + 1) first len).map s.after
  | .resetPoison => some { s with mmap := s.mmap.resetPoison, faults := 0 }

end Watched

end MmapShield.Model
