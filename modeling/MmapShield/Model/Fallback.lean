import MmapShield.Model.Access
import Mathlib.Tactic.Basic

/-!
# The `pread` fallback

`pread_exact` (`sys/pread.rs`) and `PreadReader` (`fallback/mod.rs`). The system call is a
function of the number of the call, so that it may answer the same request with a
different count each time. A read can end without a result: `vec!` panics on a length that
no allocation can have, and a failed allocation aborts the process.

The second half is an operating system that serves one unchanged file: its answers to
`open`, `fstat`, `mmap` and `pread`, and the memory behind a mapping of it.
-/

set_option autoImplicit false

namespace MmapShield.Model

/-- How a call ends. -/
inductive Exit (ρ : Type)
  | returned (value : ρ)
  | panicked (message : String)
  | aborted

/-- `pread(2)`: the `n`-th call with its file descriptor, count and offset. An answer that is
no error is the bytes that were put into the buffer. -/
abbrev Pread := ℕ → ℤ → Usize → Int64 → Except IoError (List UInt8)

/-- The result of `pread_exact`, the buffer afterwards and the number of system calls. -/
structure PreadOutcome where
  result : Except AccessError Unit
  buf : List UInt8
  calls : ℕ

/-- The buffer with `bytes` from the index `total` on. -/
def overwrite (buf : List UInt8) (total : ℕ) (bytes : List UInt8) : List UInt8 :=
  buf.take total ++ bytes ++ buf.drop (total + bytes.length)

/-- INTERNAL: what is left to fill after a read. -/
theorem overwrite_remaining (buf : List UInt8) {total : ℕ} (bytes : List UInt8)
    (h : total < buf.length) :
    (overwrite buf total bytes).length - (total + bytes.length) =
      buf.length - (total + bytes.length) := by
  simp only [overwrite, List.length_append, List.length_take, List.length_drop]
  omega

/-- The loop of `pread_exact` after `n` calls that filled the first `total` bytes. The sum of
the offset wraps, as it does in a release build.
SOURCE: sys/pread.rs:25-51 -/
def preadLoop (pread : Pread) (fd : ℤ) (offset : Int64) (n total : ℕ) (buf : List UInt8) :
    PreadOutcome :=
  if h : total < buf.length then
    match pread n fd (UInt64.ofNat (buf.length - total)) (offset + Int64.ofNat total) with
    | .error e => ⟨.error (.io e), buf, n + 1⟩
    | .ok bytes =>
      if hzero : bytes.length = 0 then
        ⟨.error (.io (.new .unexpectedEof "pread returned 0 before buffer was filled")), buf, n + 1⟩
      else
        have : (overwrite buf total bytes).length - (total + bytes.length) <
            buf.length - total := by
          rw [overwrite_remaining buf bytes h]
          omega
        preadLoop pread fd offset (n + 1) (total + bytes.length) (overwrite buf total bytes)
  else ⟨.ok (), buf, n⟩
termination_by buf.length - total

/-- SOURCE: sys/pread.rs:24-52 -/
def preadExact (pread : Pread) (fd : ℤ) (buf : List UInt8) (offset : Int64) : PreadOutcome :=
  preadLoop pread fd offset 0 0 buf

/-- `vec![0u8; len]` with an allocator that serves the sizes in `alloc`. An empty vector
needs no allocation, and none is larger than `isize::MAX`. -/
def vecZeroed (alloc : Usize → Bool) (len : Usize) : Exit (List UInt8) :=
  if 2 ^ 63 ≤ len.toNat then .panicked "capacity overflow"
  else if len = 0 ∨ alloc len = true then .returned (List.replicate len.toNat 0)
  else .aborted

/-- A file opened for `pread`; the path is not kept, no read uses it.
SOURCE: fallback/mod.rs:35-39 -/
structure PreadReader where
  fd : ℤ
  len : UInt64
  deriving DecidableEq, Repr

/-- SOURCE: fallback/mod.rs:52-62 -/
def PreadReader.open (kernel : Kernel) : Except IoError PreadReader := do
  let fd ← kernel.openFile false
  let len ← kernel.metadata fd
  pure { fd := fd, len := len }

/-- The subtraction wraps, as it does in a release build.
SOURCE: fallback/mod.rs:82-102 -/
def PreadReader.read {ρ : Type} (self : PreadReader) (alloc : Usize → Bool) (pread : Pread)
    (start stop : Usize) (f : List UInt8 → ρ) : Exit (Except AccessError ρ) :=
  let offset := start
  let len := stop - start
  if stop > self.len then .returned (.error (.outOfBounds offset len self.len))
  else
    match vecZeroed alloc len with
    | .panicked message => .panicked message
    | .aborted => .aborted
    | .returned buf =>
      let filled := preadExact pread self.fd buf offset.toInt64
      match filled.result with
      | .error e => .returned (.error e)
      | .ok () => .returned (.ok (f filled.buf))

/-! ## An unchanged file -/

/-- A file that is not empty and not longer than an `off_t` can say. -/
structure FileContents where
  bytes : List UInt8
  nonempty : 0 < bytes.length
  small : bytes.length < 2 ^ 63

namespace FileContents

/-- The length that `fstat` reports. -/
def len (file : FileContents) : UInt64 := UInt64.ofNat file.bytes.length

/-- The bytes `start..stop` of the file. -/
def slice (file : FileContents) (start stop : Usize) : List UInt8 :=
  (file.bytes.drop start.toNat).take (stop.toNat - start.toNat)

/-- `pread(2)` on the file: a negative offset is invalid, and the `n`-th call transfers at
most `short n` bytes, but at least one if there is one. -/
def pread (file : FileContents) (short : ℕ → ℕ) : Pread := fun n _ count offset =>
  if offset.toInt < 0 then .error (.lastOsError 22)
  else .ok ((file.bytes.drop offset.toInt.toNat).take (min count.toNat (max 1 (short n))))

/-- The file opens as `fd`, and a mapping of it goes where `place` says. -/
def kernel (file : FileContents) (fd : ℤ) (place : MmapCall → Usize) : Kernel where
  openFile := fun _ => .ok fd
  flock := fun _ _ => .ok ()
  metadata := fun _ => .ok file.len
  mmap := fun call => .ok (place call)

/-- The memory behind a mapping at `ptr` of the file from `offset` on, without faults. -/
def memory (file : FileContents) (ptr : Usize) (offset : UInt64) : Memory where
  bytes := fun addr => file.bytes.getD (offset.toNat + (addr - ptr).toNat) 0
  faults := fun _ _ => false

end FileContents

end MmapShield.Model
