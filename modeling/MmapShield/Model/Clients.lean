import MmapShield.Computation.Atomic
import MmapShield.Model.Registry

/-!
# Any number of callers of the registry

Threads that call `register`, `unregister` and `contains` with any arguments, which is what
`signal` and `signal_test_helpers` let them do: regions may overlap, may be registered twice and
may end beyond the last address. The steps of `register` and `unregister` are those between the
lock and the unlock of `REGION_MUTEX`; `contains` takes no lock, it loads the published snapshot
and scans it later. The scan of a snapshot that has been freed meanwhile reads whatever the
allocator left there, the argument of `scan`.

`loadedAt`, the number of mutations that were complete at a load, and `history` are for the
analysis only, no step reads them.
-/

set_option autoImplicit false

namespace MmapShield.Model

open MmapShield.Computation

/-- A call of one of the three functions.
SOURCE: signal/registry.rs:75, 107, 141 -/
inductive RegistryCall
  | mutate (op : Mutation)
  | contains (addr : ℕ)
  deriving DecidableEq, Repr

/-- What a call returns. -/
inductive RegistryAnswer
  | unit
  | found (b : Bool)
  deriving DecidableEq, Repr

/-- Where a thread is.
SOURCE: signal/registry.rs:75-153 -/
inductive ClientPc
  | idle
  | mutate (op : Mutation) (pc : MutationPc)
  | load (addr : ℕ)
  | scan (addr : ℕ) (snap : Option ℕ) (loadedAt : ℕ)
  | ret (addr : ℕ) (found : Bool)
  deriving DecidableEq, Repr

/-- The registry, the holder of its mutex and the threads. -/
structure Clients (ι : Type) where
  registry : Registry
  mutex : Option ι
  pc : ι → ClientPc
  history : List (ObjectEvent ι RegistryCall RegistryAnswer)

/-- A thread calls, scans the snapshot it loaded, or takes the next step of its call. -/
inductive ClientAct
  | call (call : RegistryCall)
  | scan (stale : List RegisteredRegion)
  | next
  deriving DecidableEq, Repr

/-- The first step of a call. -/
def RegistryCall.start : RegistryCall → ClientPc
  | .mutate op => .mutate op .lock
  | .contains addr => .load addr

namespace Clients

variable {ι : Type} [DecidableEq ι]

/-- No thread has called. -/
def init (ι : Type) : Clients ι where
  registry := Registry.new
  mutex := none
  pc := fun _ => .idle
  history := []

/-- The thread `t` moves on to `c`. -/
def goto (s : Clients ι) (t : ι) (c : ClientPc) : Clients ι :=
  { s with pc := Function.update s.pc t c }

/-- One step of `register` or `unregister`.
SOURCE: signal/registry.rs:75-127 -/
def stepMutation (s : Clients ι) (t : ι) (op : Mutation) (pc : MutationPc) : Option (Clients ι) :=
  match pc with
  | .lock =>
    if s.mutex = none then some { s.goto t (.mutate op .rotate) with mutex := some t } else none
  | .rotate => some { s.goto t (.mutate op .load) with registry := rotateRetired s.registry }
  | .load => some (s.goto t (.mutate op (.edit s.registry.published)))
  | .edit old =>
    match op.edit (old.map s.registry.heap) with
    | none => some { s.goto t (.mutate op .unlock) with registry := s.registry.skip }
    | some regions => some (s.goto t (.mutate op (.swap regions)))
  | .swap regions =>
    some { s.goto t (.mutate op .unlock) with registry := s.registry.publish regions }
  | .unlock =>
    some { s.goto t .idle with
      mutex := none
      history := s.history ++ [.ret t (.mutate op) .unit] }

/-- What a scan reads; a null pointer is not scanned.
SOURCE: signal/registry.rs:144-152 -/
def scanned (s : Clients ι) (snap : Option ℕ) (stale : List RegisteredRegion) :
    List RegisteredRegion :=
  match snap with
  | none => []
  | some i => if i ∈ s.registry.freed then stale else s.registry.heap i

/-- One step of the thread `t`.
SOURCE: signal/registry.rs:75-153 -/
def step (a : ι × ClientAct) (s : Clients ι) : Option (Clients ι) :=
  let t := a.1
  match a.2, s.pc t with
  | .call call, .idle =>
    some { s.goto t call.start with history := s.history ++ [.call t call] }
  | .next, .mutate op pc => s.stepMutation t op pc
  | .next, .load addr =>
    some (s.goto t (.scan addr s.registry.published s.registry.completed))
  | .scan stale, .scan addr snap _ =>
    some (s.goto t (.ret addr (scanRegions (s.scanned snap stale) addr)))
  | .next, .ret addr found =>
    some { s.goto t .idle with history := s.history ++ [.ret t (.contains addr) (.found found)] }
  | _, _ => none

end Clients

/-! ## What the registry is for -/

/-- The registry as a list of regions: the answer to a call and the regions after it. -/
def RegistryCall.effect (call : RegistryCall) (regions : List RegisteredRegion) :
    RegistryAnswer × List RegisteredRegion :=
  match call with
  | .mutate (.register start len) => (.unit, regions ++ [newRegion start len])
  | .mutate (.unregister start) => (.unit, regions.filter fun r => r.start != start)
  | .contains addr => (.found (scanRegions regions addr), regions)

end MmapShield.Model
