import Mathlib.Algebra.Order.Floor.Div
import MmapShield.Model.Access
import MmapShield.Model.Advice

/-!
# A scan of a mapping whose pages are gone

The scenario `nfs_failure` of the victim program (`bin/sigbus_victim.rs`): it maps a file, reads
its first byte, evicts the pages, and when the server behind the file may be gone reads the first
byte of every page, counting what succeeds and what does not. Each read meets the memory as it is
in that round.
-/

set_option autoImplicit false

namespace MmapShield.Model

/-- The two counters of the loop, what its reads returned, and the mapping. -/
structure Scan where
  mmap : SafeMmap
  successes : UInt32
  faults : UInt32
  results : List (Except AccessError UInt8)

/-- One round of the loop. Every error counts as a fault, also that of a poisoned mapping. The
counters wrap, as they do in a release build.
SOURCE: bin/sigbus_victim.rs:262-275 -/
def scanPage (page : Usize) (mems : ℕ → Memory) (s : Scan) (i : ℕ) : Scan :=
  let offset := UInt64.ofNat i * page
  let rest := s.mmap.raw.len - offset
  let readLen := if page ≤ rest then page else rest
  let o := s.mmap.read (mems i) offset (offset + readLen) SafeMmap.firstByte
  match o.result with
  | .ok value => ⟨o.mmap, s.successes + 1, s.faults, s.results ++ [.ok value]⟩
  | .error e => ⟨o.mmap, s.successes, s.faults + 1, s.results ++ [.error e]⟩

/-- The loop over `(0..len).step_by(page)`.
SOURCE: bin/sigbus_victim.rs:258-275 -/
def scanPages (page : Usize) (mems : ℕ → Memory) (mmap : SafeMmap) : Scan :=
  (List.range (mmap.raw.len.toNat ⌈/⌉ page.toNat)).foldl (scanPage page mems) ⟨mmap, 0, 0, []⟩

/-- The exit code of the scenario, the system calls of its `evict` and the scan, if it came to
it. -/
structure VictimReport where
  code : ℕ
  evicted : List RangeCall
  scan : Option Scan

/-- The scenario; `file` is how the file of the argument opens, if there is the argument. The
result of `evict` is not looked at.
SOURCE: bin/sigbus_victim.rs:221-288 -/
def scenarioNfsFailure (page : Usize) (file : Option Kernel) (first : Memory)
    (kernel : RangeKernel) (mems : ℕ → Memory) : VictimReport :=
  match file with
  | none => ⟨1, [], none⟩
  | some file =>
    match SafeMmapOptions.new.open page file with
    | .error _ => ⟨1, [], none⟩
    | .ok mmap =>
      let o := mmap.read first 0 1 SafeMmap.firstByte
      match o.result with
      | .error _ => ⟨1, [], none⟩
      | .ok _ =>
        ⟨0, (o.mmap.evict page kernel 0 o.mmap.raw.len).calls, some (scanPages page mems o.mmap)⟩

end MmapShield.Model
