import MmapShield.Computation.Locks
import MmapShield.Model.Open

/-!
# Opens and drops with an advisory lock

Any number of calls of `SafeMmapOptions::open` on one file, each with its own options, and the
drops of the mappings that they return. A call is cut at each of its system calls, whose answers
the schedule chooses, and a drop at its own; the steps of different calls interleave. Each call
opens the file for itself, so that its open file description is named by the call.

A lock that `flock(2)` grants belongs to the open file description and goes together with the
locks of the others; `LOCK_NB` has no other way to wait for that than to fail, and it may also
fail for another reason. The close of the descriptor gives the lock up. A call that fails closes
the file on its way out, when the local variable `file` is dropped; a drop runs `Drop for
SafeMmap` first and then drops the fields in the order of their declaration, the region before
the file.
-/

set_option autoImplicit false

namespace MmapShield.Model

open MmapShield.Computation

/-- The operation that `open` passes to `flock(2)`.
SOURCE: mmap/mod.rs:337-341 -/
def SafeMmapOptions.flockOp (self : SafeMmapOptions) : FlockOp :=
  if self.writable then .lockEx else .lockSh

/-- `LOCK_SH` goes together with `LOCK_SH` only. -/
def FlockOp.fits : FlockOp → FlockOp → Bool
  | .lockSh, .lockSh => true
  | _, _ => false

/-- Where a call of `open` and the mapping it returned are. `close` is the drop of the file, with
the error of a call that fails.
SOURCE: mmap/mod.rs:110-118, 328-407, 1064-1068 -/
inductive HandlePc
  | unborn
  | openFile
  | flock (fd : ℤ)
  | metadata (fd : ℤ)
  | map (fd : ℤ) (mapLen : Usize)
  | register (raw : RawMmap)
  | live (mmap : SafeMmap)
  | munmap (raw : RawMmap)
  | close (error : Option MmapError)
  | failed (error : MmapError)
  | dropped

/-- The calls, the locks that are held on the file and the regions that are mapped. -/
structure Locking (η : Type) where
  pc : η → HandlePc
  held : LockTable η FlockOp
  mapped : η → Bool

/-- What a call does next, with the answer of the operating system. -/
inductive LockAct
  | call
  | openFile (answer : Except IoError ℤ)
  | flock (answer : Except IoError Unit)
  | metadata (answer : Except IoError UInt64)
  | map (answer : Except IoError Usize)
  | register
  | drop
  | munmap
  | close

namespace Locking

variable {η : Type} [DecidableEq η]

/-- No call has started. -/
def init (η : Type) : Locking η where
  pc := fun _ => .unborn
  held := []
  mapped := fun _ => false

/-- The call `h` moves on to `c`. -/
def goto (s : Locking η) (h : η) (c : HandlePc) : Locking η :=
  { s with pc := Function.update s.pc h c }

/-- The answer of `flock(2)`, which is a grant only when no other description holds a lock that
does not go together with it.
SOURCE: mmap/mod.rs:343-346 -/
def flockStep (s : Locking η) (h : η) (op : FlockOp) (fd : ℤ) (answer : Except IoError Unit) :
    Option (Locking η) :=
  match answer with
  | .error e => some (s.goto h (.close (some (.io e))))
  | .ok () =>
    if s.held.admits FlockOp.fits h op then
      some { s.goto h (.metadata fd) with held := s.held.acquire h op }
    else none

/-- The length of the file, and what follows from it.
SOURCE: mmap/mod.rs:349-368 -/
def metadataStep (options : SafeMmapOptions) (s : Locking η) (h : η) (fd : ℤ)
    (answer : Except IoError UInt64) : Locking η :=
  match answer with
  | .error e => s.goto h (.close (some (.io e)))
  | .ok fileLen =>
    match options.mapLen fileLen with
    | .error e => s.goto h (.close (some e))
    | .ok mapLen => s.goto h (.map fd mapLen)

/-- `MmapOptions::map`, which asks for no answer when its own checks fail.
SOURCE: mmap/mod.rs:370-392, sys/mmap.rs:227-286 -/
def mapStep (options : SafeMmapOptions) (page : Usize) (s : Locking η) (h : η) (fd : ℤ)
    (mapLen : Usize) (answer : Except IoError Usize) : Locking η :=
  match (options.mmapOptions mapLen fd).map page fun _ => answer with
  | .error e => s.goto h (.close (some (.io e)))
  | .ok raw => { s.goto h (.register raw) with mapped := Function.update s.mapped h true }

/-- One step of the call `h`.
SOURCE: mmap/mod.rs:328-407, 1064-1068, sys/mmap.rs:580-589 -/
def step (options : η → SafeMmapOptions) (page : Usize) (a : η × LockAct) (s : Locking η) :
    Option (Locking η) :=
  let h := a.1
  match a.2, s.pc h with
  | .call, .unborn => some (s.goto h .openFile)
  | .openFile (.error e), .openFile => some (s.goto h (.failed (.io e)))
  | .openFile (.ok fd), .openFile =>
    some (s.goto h (if (options h).flock then .flock fd else .metadata fd))
  | .flock answer, .flock fd => s.flockStep h (options h).flockOp fd answer
  | .metadata answer, .metadata fd => some (metadataStep (options h) s h fd answer)
  | .map answer, .map fd mapLen => some (mapStep (options h) page s h fd mapLen answer)
  | .register, .register raw => some (s.goto h (.live ((options h).finish raw)))
  | .drop, .live mmap => some (s.goto h (.munmap mmap.raw))
  | .munmap, .munmap _ =>
    some { s.goto h (.close none) with mapped := Function.update s.mapped h false }
  | .close, .close error =>
    some { s.goto h (error.elim .dropped .failed) with held := s.held.release h }
  | _, _ => none

end Locking

end MmapShield.Model
