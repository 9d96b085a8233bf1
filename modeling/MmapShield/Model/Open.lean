import MmapShield.Computation.Result
import MmapShield.Model.Sys

/-!
# Opening a mapping

`SafeMmapOptions` and its `open` up to the point where the new mapping is handed to
the signal layer (`mmap/mod.rs:148-407`). Everything the operating system answers is
in a `Kernel`; `openRaw` has every exit of the source: the file does not open, the
lock is held elsewhere, the metadata cannot be read, the file is empty, the offset is
beyond it, the requested length is zero, the offset is not aligned, `mmap(2)` fails.
-/

set_option autoImplicit false

namespace MmapShield.Model

open MmapShield.Computation

/-- The two `flock(2)` operations that `open` uses, both with `LOCK_NB`.
SOURCE: mmap/mod.rs:336-341 -/
inductive FlockOp
  | lockEx
  | lockSh
  deriving DecidableEq, Repr

/-- The answers of the operating system to the calls that `open` makes. -/
structure Kernel where
  openFile : Bool → Except IoError ℤ
  flock : ℤ → FlockOp → Except IoError Unit
  metadata : ℤ → Except IoError UInt64
  mmap : MmapCall → Except IoError Usize

/-- SOURCE: mmap/mod.rs:32 -/
def DEFAULT_MAX_SIGBUS : UInt32 := 3

/-- The builder; of the callback it matters only whether there is one.
SOURCE: mmap/mod.rs:149-158 -/
structure SafeMmapOptions where
  writable : Bool
  shared : Bool
  offset : UInt64
  len : Option Usize
  maxSigbus : UInt32
  populate : Bool
  onEvent : Bool
  flock : Bool
  deriving DecidableEq, Repr

/-- SOURCE: mmap/mod.rs:161-172 -/
def SafeMmapOptions.new : SafeMmapOptions where
  writable := false
  shared := false
  offset := 0
  len := none
  maxSigbus := DEFAULT_MAX_SIGBUS
  populate := false
  onEvent := false
  flock := false

/-- The number of bytes to map.
SOURCE: mmap/mod.rs:351-368 -/
def SafeMmapOptions.mapLen (self : SafeMmapOptions) (fileLen : UInt64) :
    Except MmapError Usize := do
  if fileLen = 0 ∧ self.len.isNone then
    throw .emptyFile
  let mapLen ← match self.len with
    | some len => pure len
    | none =>
      if self.offset ≥ fileLen then throw (.offsetBeyondFile self.offset fileLen)
      else pure (fileLen - self.offset)
  if mapLen = 0 then
    throw .emptyFile
  pure mapLen

/-- The builder of the raw mapping.
SOURCE: mmap/mod.rs:370-390 -/
def SafeMmapOptions.mmapOptions (self : SafeMmapOptions) (mapLen : Usize) (fd : ℤ) :
    MmapOptions :=
  { MmapOptions.new mapLen with
    fd := some fd
    offset := self.offset
    protection := if self.writable then .readWrite else .read
    visibility := if self.shared then .shared else .privateMap
    populate := self.populate }

/-- `open` from its first statement to the mapping it then registers.
SOURCE: mmap/mod.rs:328-392 -/
def SafeMmapOptions.openRaw (self : SafeMmapOptions) (page : Usize) (kernel : Kernel) :
    Except MmapError RawMmap := do
  let fd ← (kernel.openFile self.writable).mapError .io
  if self.flock then
    (kernel.flock fd (if self.writable then .lockEx else .lockSh)).mapError .io
  let fileLen ← (kernel.metadata fd).mapError .io
  let mapLen ← self.mapLen fileLen
  ((self.mmapOptions mapLen fd).map page kernel.mmap).mapError .io

/-- A mapped file. The path and the file handle are not kept: no access reads them.
SOURCE: mmap/mod.rs:110-118 -/
structure SafeMmap where
  raw : RawMmap
  sigbusCount : UInt32
  poisoned : Bool
  maxSigbus : UInt32
  onEvent : Bool
  deriving DecidableEq, Repr

/-- The value that `open` returns.
SOURCE: mmap/mod.rs:397-405 -/
def SafeMmapOptions.finish (self : SafeMmapOptions) (raw : RawMmap) : SafeMmap where
  raw := raw
  sigbusCount := 0
  poisoned := false
  maxSigbus := self.maxSigbus
  onEvent := self.onEvent

/-- `SafeMmapOptions::open`, the registration of the region apart.
SOURCE: mmap/mod.rs:328-407 -/
def SafeMmapOptions.open (self : SafeMmapOptions) (page : Usize) (kernel : Kernel) :
    Except MmapError SafeMmap :=
  (self.openRaw page kernel).map self.finish

/-- INTERNAL: **the inversion of a successful `open`**: the kernel has opened the file
and returned its length, the window is not empty and was mapped at `raw.ptr`.
SOURCE: mmap/mod.rs:328-392 -/
theorem SafeMmapOptions.openRaw_ok {self : SafeMmapOptions} {page : Usize}
    {kernel : Kernel} {raw : RawMmap} (h : self.openRaw page kernel = .ok raw) :
    ∃ fd fileLen mapLen, kernel.openFile self.writable = .ok fd ∧
      kernel.metadata fd = .ok fileLen ∧ self.mapLen fileLen = .ok mapLen ∧
      (self.mmapOptions mapLen fd).map page kernel.mmap = .ok raw := by
  unfold SafeMmapOptions.openRaw at h
  rw [bind_eq_ok] at h
  obtain ⟨fd, hfd, h⟩ := h
  rw [mapError_eq_ok] at hfd
  -- both branches of the lock continue in the same way
  have hrest : (do
      let fileLen ← (kernel.metadata fd).mapError MmapError.io
      let mapLen ← self.mapLen fileLen
      ((self.mmapOptions mapLen fd).map page kernel.mmap).mapError MmapError.io) = .ok raw := by
    dsimp only at h
    split at h
    · obtain ⟨-, -, h⟩ := bind_eq_ok.mp h
      exact h
    · exact h
  obtain ⟨fileLen, hmeta, hrest⟩ := bind_eq_ok.mp hrest
  obtain ⟨mapLen, hlen, hrest⟩ := bind_eq_ok.mp hrest
  exact ⟨fd, fileLen, mapLen, hfd, mapError_eq_ok.mp hmeta, hlen, mapError_eq_ok.mp hrest⟩

/-- INTERNAL: a mapping that `open` hands to the signal layer is not empty.
SOURCE: sys/mmap.rs:228-233 -/
theorem SafeMmapOptions.openRaw_len_pos {self : SafeMmapOptions} {page : Usize}
    {kernel : Kernel} {raw : RawMmap} (h : self.openRaw page kernel = .ok raw) :
    0 < raw.len.toNat := by
  obtain ⟨fd, fileLen, mapLen, -, -, -, hmap⟩ := openRaw_ok h
  obtain ⟨hne, -, -, hlen, -⟩ := MmapOptions.map_ok hmap
  rw [hlen]
  apply Nat.pos_of_ne_zero
  intro hz
  exact hne (UInt64.toNat_inj.mp hz)

end MmapShield.Model
