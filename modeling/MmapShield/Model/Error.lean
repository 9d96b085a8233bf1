import Mathlib.Algebra.Group.Nat.Defs
import Mathlib.Data.Int.Notation

/-!
# Errors and events

The result types of the crate: `error.rs`, and the events of `mmap/mod.rs`. A
`usize` and a `u64` are 64-bit words on every supported platform, a `Duration` is
its number of nanoseconds.
-/

set_option autoImplicit false

namespace MmapShield.Model

/-- A machine word, the width of `usize` on the supported platforms. -/
abbrev Usize := UInt64

/-- The `io::ErrorKind`s that the crate builds errors of.
SOURCE: sys/mmap.rs:228-244, sys/pread.rs:41-46, mmap/mod.rs:560-565 -/
inductive ErrorKind
  | invalidInput
  | permissionDenied
  | unexpectedEof
  deriving DecidableEq, Repr

/-- An `io::Error`: the number of a failed system call, or one the crate builds.
SOURCE: error.rs:95-101 -/
inductive IoError
  | lastOsError (errno : ℕ)
  | new (kind : ErrorKind) (message : String)
  deriving DecidableEq, Repr

/-- What an access to a mapping or a file can return in place of a value.
SOURCE: error.rs:39-101 -/
inductive AccessError
  | sigbus (faultAddress : Usize)
  | outOfBounds (offset len mappingLen : Usize)
  | poisoned (sigbusCount : UInt32)
  | timeout (offset len : Usize) (deadline : ℕ)
  | io (error : IoError)
  deriving DecidableEq, Repr

/-- What creating a mapping can return in place of one.
SOURCE: error.rs:122-143 -/
inductive MmapError
  | emptyFile
  | offsetBeyondFile (offset fileLen : UInt64)
  | io (error : IoError)
  deriving DecidableEq, Repr

/-- The events of the metrics callback.
SOURCE: mmap/mod.rs:58-68 -/
inductive MmapEvent
  | sigbus (faultAddress : Usize)
  | poisoned (sigbusCount : UInt32)
  | prefetchTimeout (offset len : Usize)
  deriving DecidableEq, Repr

end MmapShield.Model
