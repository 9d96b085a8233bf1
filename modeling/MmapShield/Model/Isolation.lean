import MmapShield.Model.Locking
import MmapShield.Model.Store

/-!
# The bytes of one file behind many mappings

`Locking` together with the bytes: any number of calls of `SafeMmapOptions::open` on one file, in
any number of processes, and what is done with the mappings that they return. Each mapping is a
`Store` of its own, and all have the bytes of the file in common: a step of a mapping starts from
the bytes that its window of the file has now, and what it leaves in the window is in the file for
all. The private copies of pages are its own.

The file keeps its length, and nothing else writes it. No touch faults here.
-/

set_option autoImplicit false

namespace MmapShield.Model

/-- The opens and drops, the file, and the mappings as their last steps have left them. -/
structure Isolation (η : Type) where
  locking : Locking η
  file : ℕ → UInt8
  stores : η → Option Store

/-- A step of an open or of a drop, or an operation on a mapping. -/
inductive IsolationAct (ρ : Type)
  | lock (act : LockAct)
  | data (act : StoreAct ρ)

/-- The mapping with the bytes that its window of the file has now. -/
def Store.fill (store : Store) (file : ℕ → UInt8) (offset : ℕ) : Store :=
  let first := store.mmap.raw.ptr.toNat
  { store with
    pages := { store.pages with
      base := fun addr =>
        if first ≤ addr ∧ addr < first + store.mmap.raw.len.toNat then
          file (offset + (addr - first))
        else store.pages.base addr } }

/-- The file with the bytes that the mapping has left in its window. -/
def Store.spill (store : Store) (file : ℕ → UInt8) (offset : ℕ) : ℕ → UInt8 := fun pos =>
  if offset ≤ pos ∧ pos < offset + store.mmap.raw.len.toNat then
    store.pages.base (store.mmap.raw.ptr.toNat + (pos - offset))
  else file pos

namespace Isolation

variable {η : Type} [DecidableEq η]

/-- No call has started. -/
def init (η : Type) (file : ℕ → UInt8) : Isolation η where
  locking := .init η
  file := file
  stores := fun _ => none

omit [DecidableEq η] in
/-- The bytes of the file from the offset of a mapping on. -/
def window (options : SafeMmapOptions) (s : Isolation η) : ℕ → UInt8 := fun i =>
  s.file (options.offset.toNat + i)

omit [DecidableEq η] in
/-- The mapping as it is now. -/
def storeOf (options : η → SafeMmapOptions) (s : Isolation η) (h : η) : Option Store :=
  (s.stores h).map fun store => store.fill s.file (options h).offset.toNat

/-- The mapping that the end of `open` hands to the user.
SOURCE: mmap/mod.rs:392-407 -/
def arrive (options : η → SafeMmapOptions) (s : Isolation η) (h : η) : LockAct → η → Option Store
  | .register =>
    match s.locking.pc h with
    | .register raw =>
      Function.update s.stores h (some (.start (options h) raw (s.window (options h))))
    | _ => s.stores
  | _ => s.stores

/-- One step of the call `h`, or of the mapping that it returned.
SOURCE: mmap/mod.rs:328-407, 503-585, 601-603, 646-648, 709-711, 733-735, 815-839, 1064-1068 -/
def step {ρ : Type} (options : η → SafeMmapOptions) (page : Usize) (a : η × IsolationAct ρ)
    (s : Isolation η) : Option (Isolation η) :=
  let h := a.1
  match a.2 with
  | .lock act =>
    (Locking.step options page (h, act) s.locking).map fun locking =>
      { s with
        locking := locking
        stores := s.arrive options h act }
  | .data act =>
    match s.locking.pc h, s.storeOf options h with
    | .live _, some store =>
      (Store.step page act store).map fun store =>
        { s with
          file := store.spill s.file (options h).offset.toNat
          stores := Function.update s.stores h (some store) }
    | _, _ => none

end Isolation

end MmapShield.Model
