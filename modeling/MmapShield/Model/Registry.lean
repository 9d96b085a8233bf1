import MmapShield.Computation.Grace
import MmapShield.Model.Error
import Mathlib.Data.List.Basic

/-!
# The region registry

`signal/registry.rs`. The registry is a `Grace` whose snapshots are region lists:
`published` is `REGION_SNAPSHOT`, `previous` and `current` are the two lists of the
`RetiredTracker`, and `freed` holds the snapshots whose box has been dropped. A
snapshot is an identifier, its contents are in `heap` and never change.

A call of `register` or `unregister` is a `Mutation`. `Mutation.apply` runs it as a
whole; `MutationPc` names the points between its steps, for the machines in which
the steps of several threads interleave. Addresses are natural numbers; the one sum
the registry computes wraps as it does in the source.
-/

set_option autoImplicit false

namespace MmapShield.Model

open MmapShield.Computation

/-- SOURCE: signal/registry.rs:17-21 -/
structure RegisteredRegion where
  start : ℕ
  stop : ℕ
  deriving DecidableEq, Repr

/-- The test of one region in `contains`.
SOURCE: signal/registry.rs:152 -/
def RegisteredRegion.covers (r : RegisteredRegion) (addr : ℕ) : Bool :=
  decide (addr ≥ r.start) && decide (addr < r.stop)

/-- SOURCE: signal/registry.rs:24-26, 37, 47-50 -/
abbrev Registry := Grace (List RegisteredRegion)

/-- The registry before the first mutation.
SOURCE: signal/registry.rs:37, 52-63 -/
def Registry.new : Registry := Grace.start []

/-- SOURCE: signal/registry.rs:170-175 -/
def rotateRetired (tracker : Registry) : Registry :=
  { tracker with
    freed := tracker.freed ++ tracker.previous
    previous := tracker.current
    current := []
    rotations := tracker.rotations + 1 }

/-- A scan of the regions of a snapshot.
SOURCE: signal/registry.rs:149-152 -/
def scanRegions (regions : List RegisteredRegion) (addr : ℕ) : Bool :=
  regions.any fun r => r.covers addr

/-- `contains`, when nothing runs between its load and its scan.
SOURCE: signal/registry.rs:141-153 -/
def contains (r : Registry) (addr : ℕ) : Bool :=
  match r.snapshot with
  | none => false
  | some regions => scanRegions regions addr

/-- A call of `register` or of `unregister`. -/
inductive Mutation
  | register (start len : ℕ)
  | unregister (start : ℕ)
  deriving DecidableEq, Repr

/-- The region that `register` pushes.
SOURCE: signal/registry.rs:87-90 -/
def newRegion (start len : ℕ) : RegisteredRegion where
  start := start
  stop := (start + len) % 2 ^ 64

/-- The clone and the edit, from the contents of the loaded snapshot; `none` is the
early return of `unregister` on a null snapshot.
SOURCE: signal/registry.rs:80-90, 112-119 -/
def Mutation.edit (op : Mutation) (old : Option (List RegisteredRegion)) :
    Option (List RegisteredRegion) :=
  match op, old with
  | .register start len, none => some [newRegion start len]
  | .register start len, some regions => some (regions ++ [newRegion start len])
  | .unregister _, none => none
  | .unregister start, some regions => some (regions.filter fun r => r.start != start)

/-- A whole mutation, under the mutex from its first step to its last.
SOURCE: signal/registry.rs:75-127 -/
def Mutation.apply (op : Mutation) (r : Registry) : Registry :=
  let tracker := rotateRetired r
  match op.edit tracker.snapshot with
  | none => tracker.skip
  | some regions => tracker.publish regions

/-- SOURCE: signal/registry.rs:75-98 -/
def register (r : Registry) (start len : ℕ) : Registry := (Mutation.register start len).apply r

/-- SOURCE: signal/registry.rs:107-127 -/
def unregister (r : Registry) (start : ℕ) : Registry := (Mutation.unregister start).apply r

/-- The next step of a call of `register` or `unregister`. After `edit` holds what was
loaded and after `swap` the edited regions. -/
inductive MutationPc
  | lock
  | rotate
  | load
  | edit (old : Option ℕ)
  | swap (regions : List RegisteredRegion)
  | unlock
  deriving DecidableEq, Repr

/-- The mutex is held at every point but the first. -/
def MutationPc.holds : MutationPc → Bool
  | .lock => false
  | _ => true

/-- The effect of a mutation has not been published yet. -/
def MutationPc.before : MutationPc → Bool
  | .unlock => false
  | _ => true

/-- The regions of the published snapshot, none when it is null. -/
def Registry.regions (r : Registry) : List RegisteredRegion := r.snapshot.getD []

/-- INTERNAL: the rotation of the source is the library's. -/
theorem rotateRetired_eq (r : Registry) : rotateRetired r = Grace.rotate r := rfl

/-- INTERNAL: a rotation does not touch what is published. -/
@[simp] theorem rotateRetired_snapshot (r : Registry) :
    Grace.snapshot (rotateRetired r) = r.snapshot := rfl

/-- INTERNAL: what `publish` publishes.
SOURCE: signal/registry.rs:92-93 -/
@[simp] theorem publish_snapshot (r : Registry) (regions : List RegisteredRegion) :
    Grace.snapshot (Grace.publish r regions) = some regions := by
  simp [Grace.snapshot, Grace.publish]

/-- INTERNAL: a region covers the addresses from its start up to its end.
SOURCE: signal/registry.rs:152 -/
theorem covers_iff (r : RegisteredRegion) (addr : ℕ) :
    r.covers addr = true ↔ r.start ≤ addr ∧ addr < r.stop := by
  simp [RegisteredRegion.covers]

/-- INTERNAL: a scan finds an address exactly when one of the regions covers it.
SOURCE: signal/registry.rs:149-152 -/
theorem scanRegions_iff (regions : List RegisteredRegion) (addr : ℕ) :
    scanRegions regions addr = true ↔ ∃ r ∈ regions, r.start ≤ addr ∧ addr < r.stop := by
  simp only [scanRegions, List.any_eq_true, covers_iff]

/-- INTERNAL: `contains` scans what is published; nothing published is nothing found.
SOURCE: signal/registry.rs:141-153 -/
theorem contains_eq (r : Registry) (addr : ℕ) :
    contains r addr = scanRegions r.regions addr := by
  unfold contains Registry.regions
  cases r.snapshot <;> rfl

/-- INTERNAL: what the edit makes of the published regions. The early return leaves
an empty registry as it is, so it agrees with the filter there.
SOURCE: signal/registry.rs:80-90, 112-119 -/
theorem edit_regions (op : Mutation) (r : Registry) :
    (op.edit r.snapshot).getD [] =
      match op with
      | .register start len => r.regions ++ [newRegion start len]
      | .unregister start => r.regions.filter fun x => x.start != start := by
  unfold Mutation.edit Registry.regions
  cases op <;> cases r.snapshot <;> rfl

/-- INTERNAL: only an `unregister` that finds a null snapshot publishes nothing.
SOURCE: signal/registry.rs:112-114 -/
theorem edit_eq_none {op : Mutation} {old : Option (List RegisteredRegion)}
    (h : op.edit old = none) : old = none ∧ ∃ start, op = .unregister start := by
  cases op with
  | register start len => cases old <;> cases h
  | unregister start =>
    cases old with
    | none => exact ⟨rfl, start, rfl⟩
    | some regions => cases h

end MmapShield.Model
